import SchemaDelta.Proofs.Schema.Table

/-!
# Operations on the keys of a table

The primary key and the other indexes are one list of named things, in which the
name of the primary key is taken by nothing else.
-/

namespace SchemaDelta

open Named

def Index.primaryKey : String :=
  lowerCase Index.primaryName

/-- Whether the name of an index suits its kind. -/
structure Index.WellNamed (index : Index) : Prop where
  primary : index.isPrimary = true → index = .primary index.columns
  secondary : index.isPrimary = false → key index ≠ Index.primaryKey

namespace Table

/-- What all operations keep: names that occur once, in order, and a primary key
that is told by its name as well as by its kind. -/
structure Coherent (table : Table) : Prop where
  columns : Distinct table.columns
  primary : ∀ index ∈ table.primaryKey, index = .primary index.columns
  secondary : ∀ index ∈ table.indexes,
    index.isPrimary = false ∧ key index ≠ Index.primaryKey
  indexes : Ascending table.indexes
  foreignKeys : Ascending table.foreignKeys

variable {table edited : Table}

theorem lookup_allIndexes_of_none (h : table.primaryKey = none) :
    lookup table.allIndexes = lookup table.indexes := by
  simp [allIndexes, h]

theorem lookup_allIndexes_of_some {index : Index} (h : table.primaryKey = some index) :
    lookup table.allIndexes =
      Function.update (lookup table.indexes) (key index) (some index) := by
  simp [allIndexes, h, lookup_cons]

namespace Coherent

theorem key_primary (h : table.Coherent) {index : Index}
    (hprimary : table.primaryKey = some index) : key index = Index.primaryKey := by
  rw [h.primary index hprimary]
  rfl

theorem lookup_indexes_primary (h : table.Coherent) :
    lookup table.indexes Index.primaryKey = none :=
  lookup_eq_none_iff.mpr fun index hindex => (h.secondary index hindex).2

theorem lookup_primary (h : table.Coherent) :
    lookup table.allIndexes Index.primaryKey = table.primaryKey := by
  cases hprimary : table.primaryKey with
  | none => rw [lookup_allIndexes_of_none hprimary, h.lookup_indexes_primary]
  | some index =>
      rw [lookup_allIndexes_of_some hprimary, h.key_primary hprimary, Function.update_self]

theorem lookup_secondary (h : table.Coherent) {k : String} (hk : k ≠ Index.primaryKey) :
    lookup table.allIndexes k = lookup table.indexes k := by
  cases hprimary : table.primaryKey with
  | none => rw [lookup_allIndexes_of_none hprimary]
  | some index =>
      rw [lookup_allIndexes_of_some hprimary, h.key_primary hprimary, Function.update_of_ne hk]

theorem allIndexes_distinct (h : table.Coherent) : Distinct table.allIndexes := by
  unfold allIndexes
  cases hprimary : table.primaryKey with
  | none => exact h.indexes.distinct
  | some index =>
      refine distinct_cons.mpr ⟨?_, h.indexes.distinct⟩
      rw [h.primary index hprimary]
      exact h.lookup_indexes_primary

theorem wellNamed (h : table.Coherent) {index : Index} (hindex : index ∈ table.allIndexes) :
    index.WellNamed := by
  rcases List.mem_append.mp hindex with hprimary | hsecondary
  · have heq := h.primary index (Option.mem_toList.mp hprimary)
    refine ⟨fun _ => heq, fun hkind => ?_⟩
    rw [heq] at hkind
    cases hkind
  · obtain ⟨hkind, hname⟩ := h.secondary index hsecondary
    exact ⟨fun hprimary => by simp [hkind] at hprimary, fun _ => hname⟩

end Coherent

/-! ## Making columns NOT NULL -/

theorem requireValues_eq_self {names : List String} {columns : List Column}
    (h : ∀ column ∈ columns, ∀ name ∈ names, lowerCase name = key column →
      column.nullable = false) : requireValues names columns = columns := by
  unfold requireValues
  conv_rhs => rw [← List.map_id columns]
  refine List.map_congr_left fun column hcolumn => ?_
  split
  next hnamed =>
    obtain ⟨name, hname, hsame⟩ := List.any_eq_true.mp hnamed
    have hnullable := h column hcolumn name hname (sameName_iff.mp hsame).symm
    rw [id, ← hnullable]
  next => rfl

/-! ## Setting the primary key and adding indexes -/

theorem setPrimaryKey_eq_ok_iff {columns : List String} :
    table.setPrimaryKey columns = .ok edited ↔
      table.primaryKey = none ∧
        ∃ resolved, table.resolveColumns .primaryKey columns = .ok resolved ∧
          edited = { table with
            columns := requireValues resolved table.columns
            primaryKey := some (.primary resolved) } := by
  unfold setPrimaryKey
  cases hprimary : table.primaryKey with
  | some index => simp [bind, Except.bind, throw, throwThe, MonadExceptOf.throw]
  | none =>
      cases hresolve : table.resolveColumns .primaryKey columns with
      | error error => simp [bind, Except.bind]
      | ok resolved => simp [bind, Except.bind, pure, Except.pure, eq_comm]

theorem addIndex_primary {index : Index} (h : index.isPrimary = true) :
    table.addIndex index = table.setPrimaryKey index.columns := by
  simp [addIndex, h]

theorem addIndex_eq_ok_iff {index : Index} (hkind : index.isPrimary = false) :
    table.addIndex index = .ok edited ↔
      lookup table.allIndexes (key index) = none ∧ key index ≠ Index.primaryKey ∧
        ∃ resolved, table.resolveColumns (.index index.name) index.columns = .ok resolved ∧
          edited = { table with
            indexes := Named.insert { index with columns := resolved } table.indexes } := by
  have htaken : ((table.index? index.name).isSome || sameName index.name Index.primaryName)
      = true ↔ ¬(lookup table.allIndexes (key index) = none ∧
        key index ≠ Index.primaryKey) := by
    rw [Bool.or_eq_true, sameName_iff, Option.isSome_iff_ne_none, not_and_or, not_not]
    rfl
  unfold addIndex
  rw [if_neg (by simp [hkind])]
  split
  next h =>
    rw [← and_assoc]
    exact ⟨fun hok => by simp at hok, fun hok => absurd hok.1 (htaken.mp h)⟩
  next h =>
    obtain ⟨hfree, hname⟩ := not_not.mp (mt htaken.mpr h)
    simp only [hfree, hname, ne_eq, not_false_eq_true, true_and]
    cases hresolve : table.resolveColumns (.index index.name) index.columns with
    | error error => simp [bind, Except.bind]
    | ok resolved => simp [bind, Except.bind, pure, Except.pure, eq_comm]

/-- Whether the columns of an index are there, and NOT NULL if the index is to be
the primary key. -/
def Supports (table : Table) (index : Index) : Prop :=
  ∀ name ∈ index.columns, ∃ column, lookup table.columns (lowerCase name) = some column ∧
    (index.isPrimary = true → column.nullable = false)

theorem Supports.declares {index : Index} (h : table.Supports index) :
    table.Declares index.columns := by
  intro name hname hnone
  obtain ⟨column, hcolumn, _⟩ := h name hname
  rw [hnone] at hcolumn
  cases hcolumn

theorem Supports.requireValues_eq_self (hcoherent : table.Coherent) {index : Index}
    (h : table.Supports index) (hprimary : index.isPrimary = true) {resolved : List String}
    (hresolved : index.columns.map lowerCase = resolved.map lowerCase) :
    requireValues resolved table.columns = table.columns := by
  refine Table.requireValues_eq_self fun column hcolumn name hname hkey => ?_
  obtain ⟨declared, hdeclared, hsame⟩ :=
    List.mem_map.mp (hresolved ▸ List.mem_map_of_mem (f := lowerCase) hname)
  obtain ⟨found, hfound, hnullable⟩ := h declared hdeclared
  rw [hsame, hkey, lookup_key hcoherent.columns hcolumn, Option.some.injEq] at hfound
  exact hfound ▸ hnullable hprimary

/-- Adding an index that the columns support changes nothing but the indexes. -/
theorem addIndex_eq_ok (hcoherent : table.Coherent) {index : Index}
    (hfree : lookup table.allIndexes (key index) = none) (hname : index.WellNamed)
    (hsupports : table.Supports index) :
    ∃ primaryKey indexes resolved,
      table.addIndex index = .ok { table with primaryKey, indexes } ∧
        Coherent { table with primaryKey, indexes } ∧
        index.columns.map lowerCase = resolved.map lowerCase ∧
        lookup ({ table with primaryKey, indexes } : Table).allIndexes =
          Function.update (lookup table.allIndexes) (key index)
            (some { index with columns := resolved }) := by
  cases hkind : index.isPrimary with
  | true =>
      obtain ⟨resolved, hresolve⟩ := hsupports.declares.resolve .primaryKey
      have hsame := sameNames_of_resolve hresolve
      have hindex : index = .primary index.columns := hname.primary hkind
      have hkey : key index = Index.primaryKey := by
        rw [hindex]
        rfl
      have hnone : table.primaryKey = none := by
        rw [← hcoherent.lookup_primary, ← hkey, hfree]
      refine ⟨some (.primary resolved), table.indexes, resolved, ?_, ?_, hsame, ?_⟩
      · rw [addIndex_primary hkind, setPrimaryKey_eq_ok_iff]
        refine ⟨hnone, resolved, hresolve, ?_⟩
        rw [hsupports.requireValues_eq_self hcoherent hkind hsame]
      · refine ⟨hcoherent.columns, ?_, hcoherent.secondary, hcoherent.indexes,
          hcoherent.foreignKeys⟩
        intro other hother
        rw [Option.mem_def, Option.some.injEq] at hother
        rw [← hother]
        rfl
      · rw [lookup_allIndexes_of_some rfl, lookup_allIndexes_of_none hnone, hindex]
        rfl
  | false =>
      obtain ⟨resolved, hresolve⟩ := hsupports.declares.resolve (.index index.name)
      have hne := hname.secondary hkind
      have hfree' : lookup table.indexes (key index) = none := by
        rw [← hcoherent.lookup_secondary hne, hfree]
      have hinsert : lookup (Named.insert { index with columns := resolved } table.indexes) =
          Function.update (lookup table.indexes) (key index)
            (some { index with columns := resolved }) :=
        lookup_insert hcoherent.indexes.distinct hfree'
      refine ⟨table.primaryKey, Named.insert { index with columns := resolved } table.indexes,
        resolved, ?_, ?_, sameNames_of_resolve hresolve, ?_⟩
      · rw [addIndex_eq_ok_iff hkind]
        exact ⟨hfree, hne, resolved, hresolve, rfl⟩
      · refine ⟨hcoherent.columns, hcoherent.primary, ?_,
          ascending_insert hcoherent.indexes hfree', hcoherent.foreignKeys⟩
        intro other hother
        rcases List.mem_cons.mp ((insert_perm _ _).mem_iff.mp hother) with rfl | hother
        · exact ⟨hkind, hne⟩
        · exact hcoherent.secondary other hother
      · cases hprimary : table.primaryKey with
        | none =>
            rw [lookup_allIndexes_of_none hprimary, lookup_allIndexes_of_none rfl]
            exact hinsert
        | some primary =>
            rw [lookup_allIndexes_of_some hprimary, lookup_allIndexes_of_some rfl, hinsert]
            refine Function.update_comm ?_ _ _ _
            rw [hcoherent.key_primary hprimary]
            exact hne

/-! ## Removing indexes -/

theorem removeIndex_eq_ok (hcoherent : table.Coherent) {name : String}
    (hfound : lookup table.allIndexes (lowerCase name) ≠ none) :
    ∃ primaryKey indexes, table.removeIndex name = .ok { table with primaryKey, indexes } ∧
      Coherent { table with primaryKey, indexes } ∧
      lookup ({ table with primaryKey, indexes } : Table).allIndexes =
        Function.update (lookup table.allIndexes) (lowerCase name) none := by
  unfold removeIndex
  split
  next hname =>
    have hkey : lowerCase name = Index.primaryKey := sameName_iff.mp hname
    rw [hkey, hcoherent.lookup_primary] at hfound
    obtain ⟨index, hprimary⟩ := Option.ne_none_iff_exists'.mp hfound
    refine ⟨none, table.indexes, by simp [hprimary], ?_, ?_⟩
    · exact ⟨hcoherent.columns, by simp, hcoherent.secondary, hcoherent.indexes,
        hcoherent.foreignKeys⟩
    · rw [lookup_allIndexes_of_none rfl, lookup_allIndexes_of_some hprimary, hkey,
        hcoherent.key_primary hprimary, Function.update_idem,
        ← hcoherent.lookup_indexes_primary, Function.update_eq_self]
  next hname =>
    have hne : lowerCase name ≠ Index.primaryKey := fun heq => hname (sameName_iff.mpr heq)
    rw [hcoherent.lookup_secondary hne] at hfound
    have hcontains : contains name table.indexes = true := by
      rw [contains_eq_isSome]
      exact Option.isSome_iff_ne_none.mpr hfound
    have herase := lookup_erase hcoherent.indexes.distinct hfound
    have hsublist : (Named.erase name table.indexes).Sublist table.indexes :=
      List.eraseP_sublist
    refine ⟨table.primaryKey, Named.erase name table.indexes, by rw [if_pos hcontains],
      ⟨hcoherent.columns, hcoherent.primary,
        fun index hindex => hcoherent.secondary index (hsublist.mem hindex),
        hcoherent.indexes.sublist hsublist, hcoherent.foreignKeys⟩, ?_⟩
    cases hprimary : table.primaryKey with
    | none =>
        rw [lookup_allIndexes_of_none hprimary, lookup_allIndexes_of_none rfl]
        exact herase
    | some primary =>
        rw [lookup_allIndexes_of_some hprimary, lookup_allIndexes_of_some rfl]
        dsimp only
        rw [herase]
        refine Function.update_comm ?_ _ _ _
        rw [hcoherent.key_primary hprimary]
        exact hne

/-! ## Foreign keys -/

theorem addForeignKey_eq_ok_iff {foreignKey : ForeignKey} :
    table.addForeignKey foreignKey = .ok edited ↔
      lookup table.foreignKeys (key foreignKey) = none ∧
        foreignKey.columns.length = foreignKey.referencedColumns.length ∧
        ∃ resolved, table.resolveColumns (.foreignKey foreignKey.name) foreignKey.columns =
            .ok resolved ∧
          edited = { table with
            foreignKeys := Named.insert { foreignKey with columns := resolved }
              table.foreignKeys } := by
  have htaken : (table.foreignKey? foreignKey.name).isSome = true ↔
      lookup table.foreignKeys (key foreignKey) ≠ none := Option.isSome_iff_ne_none
  unfold addForeignKey
  split
  next h => exact ⟨fun hok => by simp [throw, throwThe, MonadExceptOf.throw] at hok,
      fun hok => absurd hok.1 (htaken.mp h)⟩
  next h =>
    have hfree := not_not.mp (mt htaken.mpr h)
    split
    next harity => exact ⟨fun hok => by simp [throw, throwThe, MonadExceptOf.throw] at hok,
        fun hok => absurd hok.2.1 harity⟩
    next harity =>
      simp only [hfree, not_not.mp harity, true_and]
      cases hresolve : table.resolveColumns (.foreignKey foreignKey.name) foreignKey.columns with
      | error error => simp [bind, Except.bind]
      | ok resolved => simp [bind, Except.bind, pure, Except.pure, eq_comm]

theorem addForeignKey_eq_ok (hcoherent : table.Coherent) {foreignKey : ForeignKey}
    (hfree : lookup table.foreignKeys (key foreignKey) = none)
    (harity : foreignKey.columns.length = foreignKey.referencedColumns.length)
    (hdeclares : table.Declares foreignKey.columns) :
    ∃ foreignKeys resolved,
      table.addForeignKey foreignKey = .ok { table with foreignKeys } ∧
        Coherent { table with foreignKeys } ∧
        foreignKey.columns.map lowerCase = resolved.map lowerCase ∧
        lookup foreignKeys = Function.update (lookup table.foreignKeys) (key foreignKey)
          (some { foreignKey with columns := resolved }) := by
  obtain ⟨resolved, hresolve⟩ := hdeclares.resolve (.foreignKey foreignKey.name)
  have hfree' : lookup table.foreignKeys (key { foreignKey with columns := resolved }) = none :=
    hfree
  refine ⟨Named.insert { foreignKey with columns := resolved } table.foreignKeys, resolved, ?_,
    ⟨hcoherent.columns, hcoherent.primary, hcoherent.secondary, hcoherent.indexes,
      ascending_insert hcoherent.foreignKeys hfree'⟩,
    sameNames_of_resolve hresolve, lookup_insert hcoherent.foreignKeys.distinct hfree'⟩
  rw [addForeignKey_eq_ok_iff]
  exact ⟨hfree, harity, resolved, hresolve, rfl⟩

theorem removeForeignKey_eq_ok (hcoherent : table.Coherent) {name : String}
    (hfound : lookup table.foreignKeys (lowerCase name) ≠ none) :
    ∃ foreignKeys, table.removeForeignKey name = .ok { table with foreignKeys } ∧
      Coherent { table with foreignKeys } ∧
      lookup foreignKeys =
        Function.update (lookup table.foreignKeys) (lowerCase name) none := by
  have hcontains : contains name table.foreignKeys = true := by
    rw [contains_eq_isSome]
    exact Option.isSome_iff_ne_none.mpr hfound
  refine ⟨Named.erase name table.foreignKeys, if_pos hcontains, ?_,
    lookup_erase hcoherent.foreignKeys.distinct hfound⟩
  exact ⟨hcoherent.columns, hcoherent.primary, hcoherent.secondary, hcoherent.indexes,
    List.Pairwise.sublist List.eraseP_sublist hcoherent.foreignKeys⟩

end Table

end SchemaDelta
