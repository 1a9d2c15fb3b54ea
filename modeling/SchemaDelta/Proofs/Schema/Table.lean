import Mathlib.Data.List.Forall2
import SchemaDelta.Proofs.Named.Lookup
import SchemaDelta.Schema.Table

/-!
# Operations on tables

When an operation on a table succeeds, and what it makes of the columns, the
indexes and the foreign keys as partial maps from keys.  The tables that the
adding operations build satisfy more than the operations ask for: the columns of
their keys exist in the spelling that the keys have, and those of the primary
key are NOT NULL.
-/

namespace SchemaDelta

open Named

theorem bind_eq_ok_iff {ε α β : Type} {x : Except ε α} {f : α → Except ε β} {b : β} :
    x >>= f = .ok b ↔ ∃ a, x = .ok a ∧ f a = .ok b := by
  cases x with
  | error error => simp [bind, Except.bind]
  | ok a => simp [bind, Except.bind]

/-- What every step of a fold keeps, the fold keeps. -/
theorem foldlM_keeps {ε α β : Type} {step : β → α → Except ε β} {P : β → Prop} {items : List α}
    (h : ∀ item ∈ items, ∀ b c, P b → step b item = .ok c → P c) {b c : β} (hb : P b)
    (hfold : items.foldlM step b = .ok c) : P c := by
  induction items generalizing b with
  | nil =>
      obtain rfl : b = c := Except.ok.inj hfold
      exact hb
  | cons item items ih =>
      rw [List.foldlM_cons] at hfold
      obtain ⟨middle, hstep, hrest⟩ := bind_eq_ok_iff.mp hfold
      exact ih (fun other hother => h other (by simp [hother])) (h item (by simp) b middle hb hstep)
        hrest

namespace Table

variable {table edited : Table}

/-! ## Columns by name -/

theorem resolveColumns_cons (owner : KeyOwner) (name : String) (names : List String) :
    table.resolveColumns owner (name :: names) =
      (do
        let spelled ← match table.column? name with
          | some column => .ok column.name
          | none => .error (.unresolvedReference table.name owner name)
        let rest ← table.resolveColumns owner names
        return spelled :: rest) := by
  rw [resolveColumns, List.mapM_cons]
  cases table.column? name <;> rfl

theorem resolveColumns_eq_ok_iff {owner : KeyOwner} {names resolved : List String} :
    table.resolveColumns owner names = .ok resolved ↔
      List.Forall₂ (fun name spelled => (table.column? name).map (·.name) = some spelled)
        names resolved := by
  induction names generalizing resolved with
  | nil =>
      rw [List.forall₂_nil_left_iff]
      exact ⟨fun h => (Except.ok.inj h).symm, by rintro rfl; rfl⟩
  | cons name names ih =>
      rw [resolveColumns_cons]
      constructor
      · intro h
        cases hcolumn : table.column? name with
        | none => simp [hcolumn, bind, Except.bind] at h
        | some column =>
            cases hrest : table.resolveColumns owner names with
            | error error => simp [hcolumn, hrest, bind, Except.bind] at h
            | ok rest =>
                simp only [hcolumn, hrest, bind, Except.bind, pure, Except.pure,
                  Except.ok.injEq] at h
                subst resolved
                exact .cons (by rw [hcolumn, Option.map_some]) (ih.mp hrest)
      · rintro (_ | ⟨hname, hrest⟩)
        obtain ⟨column, hcolumn, rfl⟩ := Option.map_eq_some_iff.mp hname
        rw [hcolumn, ih.mpr hrest]
        rfl

/-- Whether columns of these names exist. -/
def Declares (table : Table) (names : List String) : Prop :=
  ∀ name ∈ names, lookup table.columns (lowerCase name) ≠ none

/-- Whether columns exist that spell their names like this. -/
def Spells (table : Table) (names : List String) : Prop :=
  ∀ name ∈ names, ∃ column ∈ table.columns, column.name = name

theorem Spells.declares {names : List String} (h : table.Spells names) :
    table.Declares names := by
  intro name hname hnone
  obtain ⟨column, hcolumn, rfl⟩ := h name hname
  exact lookup_eq_none_iff.mp hnone column hcolumn rfl

theorem Declares.resolve {names : List String} (h : table.Declares names) (owner : KeyOwner) :
    ∃ resolved, table.resolveColumns owner names = .ok resolved := by
  simp only [resolveColumns_eq_ok_iff]
  induction names with
  | nil => exact ⟨[], .nil⟩
  | cons name names ih =>
      obtain ⟨column, hcolumn⟩ := Option.ne_none_iff_exists'.mp (h name List.mem_cons_self)
      obtain ⟨rest, hrest⟩ := ih fun other hother => h other (List.mem_cons_of_mem _ hother)
      exact ⟨column.name :: rest, .cons (by simp [column?, find?_eq_lookup, hcolumn]) hrest⟩

section Resolved

variable {owner : KeyOwner} {names resolved : List String}
  (h : table.resolveColumns owner names = .ok resolved)

include h

theorem spells_of_resolve : table.Spells resolved := by
  rw [resolveColumns_eq_ok_iff] at h
  induction h with
  | nil => simp [Spells]
  | @cons name spelled _ _ hname _ ih =>
      obtain ⟨column, hcolumn, rfl⟩ := Option.map_eq_some_iff.mp hname
      intro other hother
      rcases List.mem_cons.mp hother with rfl | hother
      · exact ⟨column, (mem_of_lookup hcolumn).1, rfl⟩
      · exact ih other hother

theorem sameNames_of_resolve : names.map lowerCase = resolved.map lowerCase := by
  rw [resolveColumns_eq_ok_iff] at h
  induction h with
  | nil => rfl
  | @cons name spelled _ _ hname _ ih =>
      obtain ⟨column, hcolumn, rfl⟩ := Option.map_eq_some_iff.mp hname
      rw [List.map_cons, List.map_cons, ih]
      exact congrArg (· :: _) (mem_of_lookup hcolumn).2.symm

theorem length_of_resolve : resolved.length = names.length := by
  simpa using congrArg List.length (sameNames_of_resolve h).symm

end Resolved

/-- Names in their declared spelling stay as they are. -/
theorem Spells.resolve (hdistinct : Distinct table.columns) {names : List String}
    (h : table.Spells names) (owner : KeyOwner) :
    table.resolveColumns owner names = .ok names := by
  rw [resolveColumns_eq_ok_iff, List.forall₂_same]
  intro name hname
  obtain ⟨column, hcolumn, rfl⟩ := h name hname
  exact congrArg (Option.map _) (lookup_key hdistinct hcolumn)

/-! ## Adding and changing columns -/

/-- Whether a column may be in a table at all. -/
def Admissible (column : Column) : Prop :=
  column.kind = .enumeration → column.enumValues ≠ []

theorem checkColumn_eq_ok_iff (table : Table) {others : List Column} {column : Column} :
    table.checkColumn others column = .ok () ↔
      lookup others (key column) = none ∧ Admissible column := by
  have hcontains : contains column.name others = true ↔ lookup others (key column) ≠ none := by
    rw [contains_eq_isSome, Option.isSome_iff_ne_none]
    rfl
  unfold checkColumn Admissible
  split
  next hfound => exact ⟨fun h => by simp at h, fun h => absurd h.1 (hcontains.mp hfound)⟩
  next hfree =>
    split
    next hempty => exact ⟨fun h => by simp at h, fun h => absurd hempty.2 (h.2 hempty.1)⟩
    next hvalues =>
      have habsent : lookup others (key column) = none :=
        not_not.mp fun hne => hfree (hcontains.mpr hne)
      exact ⟨fun _ => ⟨habsent, fun hkind hnil => hvalues ⟨hkind, hnil⟩⟩, fun _ => rfl⟩

theorem addColumn_eq_ok_iff {column : Column} :
    table.addColumn column = .ok edited ↔
      lookup table.columns (key column) = none ∧ Admissible column ∧
        edited = { table with columns := table.columns ++ [column] } := by
  rw [← and_assoc, ← checkColumn_eq_ok_iff table]
  unfold addColumn
  cases table.checkColumn table.columns column with
  | error error => simp [bind, Except.bind]
  | ok => simp [bind, Except.bind, pure, Except.pure, eq_comm]

/-- The names of the columns that the keys of a table consist of. -/
def keyColumns (table : Table) : List String :=
  table.allIndexes.flatMap (·.columns) ++ table.foreignKeys.flatMap (·.columns)

theorem releaseColumn_eq_ok {name : String}
    (h : ∀ used ∈ table.keyColumns, lowerCase used ≠ lowerCase name) :
    table.releaseColumn name = .ok () := by
  have hindexes : table.allIndexes.find? (fun index => index.columns.any (sameName · name)) =
      none := by
    simp only [List.find?_eq_none, List.any_eq_true, sameName_iff, not_exists, not_and]
    exact fun index hindex used hused => h used
      (List.mem_append_left _ (List.mem_flatMap.mpr ⟨index, hindex, hused⟩))
  have hkeys : table.foreignKeys.find? (fun key => key.columns.any (sameName · name)) =
      none := by
    simp only [List.find?_eq_none, List.any_eq_true, sameName_iff, not_exists, not_and]
    exact fun key hkey used hused => h used
      (List.mem_append_right _ (List.mem_flatMap.mpr ⟨key, hkey, hused⟩))
  simp only [releaseColumn, columnUser?, hindexes, hkeys, Option.map_none]

theorem requireColumn_eq_ok {name : String}
    (h : lookup table.columns (lowerCase name) ≠ none) :
    ∃ front old back, table.columns = front ++ old :: back ∧ key old = lowerCase name ∧
      table.requireColumn name = .ok front.length := by
  have hsome : (findIdx? name table.columns).isSome = true := by
    rw [findIdx?_isSome]
    exact Option.isSome_iff_ne_none.mpr h
  obtain ⟨position, hposition⟩ := Option.isSome_iff_exists.mp hsome
  obtain ⟨front, old, back, hcolumns, hlength, hold⟩ := exists_split_of_findIdx? hposition
  refine ⟨front, old, back, hcolumns, hold, ?_⟩
  simp [requireColumn, columnPosition?, hposition, hlength]

theorem removeColumn_eq_ok (hdistinct : Distinct table.columns) {name : String}
    (hfound : lookup table.columns (lowerCase name) ≠ none)
    (hunused : ∀ used ∈ table.keyColumns, lowerCase used ≠ lowerCase name) :
    ∃ columns, table.removeColumn name = .ok { table with columns } ∧ Distinct columns ∧
      lookup columns = Function.update (lookup table.columns) (lowerCase name) none := by
  obtain ⟨front, old, back, hcolumns, hold, hrequire⟩ := requireColumn_eq_ok hfound
  have hperm : table.columns.Perm (old :: (front ++ back)) := hcolumns ▸ List.perm_middle
  refine ⟨front ++ back, ?_, (distinct_cons.mp (hdistinct.perm hperm)).2, ?_⟩
  · have herase : table.columns.eraseIdx front.length = front ++ back := by
      rw [hcolumns, List.eraseIdx_append_of_length_le (Nat.le_refl _), Nat.sub_self,
        List.eraseIdx_cons_zero]
    simp [removeColumn, hrequire, releaseColumn_eq_ok hunused, bind, Except.bind, pure,
      Except.pure, herase]
  · rw [← hold]
    exact lookup_of_perm_cons hdistinct hperm

theorem replaceColumn_eq_ok (hdistinct : Distinct table.columns) {name : String}
    {column : Column} (hfound : lookup table.columns (lowerCase name) ≠ none)
    (hplace : key column = lowerCase name ∨
      lookup table.columns (key column) = none ∧
        ∀ used ∈ table.keyColumns, lowerCase used ≠ lowerCase name)
    (hadmissible : Admissible column) :
    ∃ columns, table.replaceColumn name column = .ok { table with columns } ∧
      Distinct columns ∧
      lookup columns = Function.update
        (Function.update (lookup table.columns) (lowerCase name) none) (key column)
        (some column) := by
  obtain ⟨front, old, back, hcolumns, hold, hrequire⟩ := requireColumn_eq_ok hfound
  rw [hcolumns] at hdistinct
  have hnew : key column = key old ∨ lookup (front ++ old :: back) (key column) = none := by
    rw [hold, ← hcolumns]
    exact hplace.imp id And.left
  have hfree := lookup_around_eq_none hdistinct hnew
  have herase : table.columns.eraseIdx front.length = front ++ back := by
    rw [hcolumns, List.eraseIdx_append_of_length_le (Nat.le_refl _), Nat.sub_self,
      List.eraseIdx_cons_zero]
  have hset : table.columns.set front.length column = front ++ column :: back := by
    rw [hcolumns, List.set_append_right _ _ (Nat.le_refl _), Nat.sub_self, List.set_cons_zero]
  have hcheck : table.checkColumn (front ++ back) column = .ok () :=
    (checkColumn_eq_ok_iff table).mpr ⟨hfree, hadmissible⟩
  obtain ⟨hdistinct', hlookup⟩ := lookup_replace hdistinct hnew
  refine ⟨front ++ column :: back, ?_, hdistinct', by rw [hlookup, hcolumns, hold]⟩
  simp only [replaceColumn, hrequire, bind, Except.bind, pure, Except.pure, herase, hset, hcheck]
  split
  next => rfl
  next hother =>
    rcases hplace with hsame | ⟨_, hunused⟩
    · exact absurd (sameName_iff.mpr hsame) hother
    · rw [releaseColumn_eq_ok hunused]

end Table

end SchemaDelta
