import SchemaDelta.Proofs.Schema.Keys

/-!
# Why adding fails

Each operation that adds to a table fails for few reasons, and its error names the one that
it was.
-/

namespace SchemaDelta

open Named

theorem bind_eq_error_iff {ε α β : Type} {x : Except ε α} {f : α → Except ε β} {error : ε} :
    x >>= f = .error error ↔ x = .error error ∨ ∃ a, x = .ok a ∧ f a = .error error := by
  cases x with
  | error other => simp [bind, Except.bind]
  | ok a => simp [bind, Except.bind]

theorem foldlM_eq_error_iff {ε α β : Type} {step : β → α → Except ε β} {items : List α} {b : β}
    {error : ε} :
    items.foldlM step b = .error error ↔
      ∃ before item after c, items = before ++ item :: after ∧ before.foldlM step b = .ok c ∧
        step c item = .error error := by
  constructor
  · intro h
    induction items generalizing b with
    | nil => cases h
    | cons item items ih =>
        rw [List.foldlM_cons] at h
        cases hstep : step b item with
        | error failure =>
            rw [hstep] at h
            obtain rfl : failure = error := Except.error.inj h
            exact ⟨[], item, items, b, rfl, rfl, hstep⟩
        | ok middle =>
            rw [hstep] at h
            obtain ⟨before, last, after, c, rfl, hbefore, hlast⟩ := ih h
            have hcons : (item :: before).foldlM step b = .ok c := by
              rw [List.foldlM_cons, hstep]
              exact hbefore
            exact ⟨item :: before, last, after, c, rfl, hcons, hlast⟩
  · rintro ⟨before, item, after, c, rfl, hbefore, hitem⟩
    rw [List.foldlM_append, hbefore]
    change (item :: after).foldlM step c = .error error
    rw [List.foldlM_cons, hitem]
    rfl

namespace Table

variable {table : Table} {error : SchemaError}

theorem resolveColumns_eq_error {owner : KeyOwner} {names : List String}
    (h : table.resolveColumns owner names = .error error) :
    ∃ name ∈ names, lookup table.columns (lowerCase name) = none ∧
      error = .unresolvedReference table.name owner name := by
  induction names with
  | nil => cases h
  | cons name names ih =>
      rw [resolveColumns_cons] at h
      cases hcolumn : table.column? name with
      | none =>
          rw [hcolumn] at h
          exact ⟨name, List.mem_cons_self, hcolumn, (Except.error.inj h).symm⟩
      | some column =>
          rw [hcolumn] at h
          change (do return column.name :: (← table.resolveColumns owner names)) = _ at h
          rcases bind_eq_error_iff.mp h with hrest | ⟨rest, -, hpure⟩
          · obtain ⟨other, hother, hfailed⟩ := ih hrest
            exact ⟨other, List.mem_cons_of_mem _ hother, hfailed⟩
          · cases hpure

theorem addColumn_eq_error {column : Column} (h : table.addColumn column = .error error) :
    error = .duplicateColumn table.name column.name ∨
      error = .emptyEnumeration table.name column.name := by
  rcases bind_eq_error_iff.mp h with hcheck | ⟨_, -, hpure⟩
  · unfold checkColumn at hcheck
    split at hcheck
    next => exact .inl (Except.error.inj hcheck).symm
    next =>
      split at hcheck
      next => exact .inr (Except.error.inj hcheck).symm
      next => cases hcheck
  · cases hpure

theorem setPrimaryKey_eq_error {columns : List String}
    (h : table.setPrimaryKey columns = .error error) :
    error = .duplicatePrimaryKey table.name ∨
      ∃ name, error = .unresolvedReference table.name .primaryKey name := by
  unfold setPrimaryKey at h
  cases hprimary : table.primaryKey with
  | some index =>
      rw [hprimary] at h
      exact .inl (Except.error.inj h).symm
  | none =>
      rw [hprimary] at h
      rcases bind_eq_error_iff.mp h with hresolve | ⟨resolved, -, hpure⟩
      · obtain ⟨name, -, -, heq⟩ := resolveColumns_eq_error hresolve
        exact .inr ⟨name, heq⟩
      · cases hpure

/-- An index that is no primary key is refused for its name or for its columns. -/
theorem addIndex_eq_error {index : Index} (hkind : index.isPrimary = false)
    (h : table.addIndex index = .error error) :
    error = .duplicateIndex table.name index.name ∧
        (lookup table.allIndexes (key index) ≠ none ∨ key index = Index.primaryKey) ∨
      ∃ name ∈ index.columns, lookup table.columns (lowerCase name) = none ∧
        error = .unresolvedReference table.name (.index index.name) name := by
  unfold addIndex at h
  rw [if_neg (by simp [hkind])] at h
  split at h
  next htaken =>
    refine .inl ⟨(Except.error.inj h).symm, ?_⟩
    rw [Bool.or_eq_true, sameName_iff] at htaken
    exact htaken.imp_left Option.isSome_iff_ne_none.mp
  next =>
    rcases bind_eq_error_iff.mp h with hresolve | ⟨resolved, -, hpure⟩
    · exact .inr (resolveColumns_eq_error hresolve)
    · cases hpure

theorem addForeignKey_eq_error {foreignKey : ForeignKey}
    (h : table.addForeignKey foreignKey = .error error) :
    error = .duplicateForeignKey table.name foreignKey.name ∧
        lookup table.foreignKeys (key foreignKey) ≠ none ∨
      foreignKey.columns.length ≠ foreignKey.referencedColumns.length ∧
        error = .foreignKeyArity table.name foreignKey.name foreignKey.columns.length
          foreignKey.referencedColumns.length ∨
      ∃ name ∈ foreignKey.columns, lookup table.columns (lowerCase name) = none ∧
        error = .unresolvedReference table.name (.foreignKey foreignKey.name) name := by
  unfold addForeignKey at h
  split at h
  next htaken =>
    exact .inl ⟨(Except.error.inj h).symm, Option.isSome_iff_ne_none.mp htaken⟩
  next =>
    split at h
    next harity => exact .inr (.inl ⟨harity, (Except.error.inj h).symm⟩)
    next =>
      rcases bind_eq_error_iff.mp h with hresolve | ⟨resolved, -, hpure⟩
      · exact .inr (.inr (resolveColumns_eq_error hresolve))
      · cases hpure

end Table

end SchemaDelta
