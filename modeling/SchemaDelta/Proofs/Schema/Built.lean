import SchemaDelta.Proofs.Schema.Keys

/-!
# Tables as they are built

A table is built from its name by adding columns, a primary key, indexes and
foreign keys.  What is built in this way is well formed.
-/

namespace SchemaDelta

open Named

/-- The tables that the adding operations lead to. -/
inductive Table.Built : Table → Prop
  | new (name : String) : Built { name }
  | addColumn {table edited : Table} {column : Column} (hbuilt : table.Built)
      (hok : table.addColumn column = .ok edited) : Built edited
  | setPrimaryKey {table edited : Table} {columns : List String} (hbuilt : table.Built)
      (hok : table.setPrimaryKey columns = .ok edited) : Built edited
  | addIndex {table edited : Table} {index : Index} (hbuilt : table.Built)
      (hok : table.addIndex index = .ok edited) : Built edited
  | addForeignKey {table edited : Table} {foreignKey : ForeignKey} (hbuilt : table.Built)
      (hok : table.addForeignKey foreignKey = .ok edited) : Built edited

/-- What is more than coherent: enumerations have values, keys name columns as
they are declared, and the columns of the primary key are NOT NULL. -/
structure Table.WellFormed (table : Table) : Prop extends table.Coherent where
  admissible : ∀ column ∈ table.columns, Table.Admissible column
  spelled : table.Spells table.keyColumns
  arity : ∀ foreignKey ∈ table.foreignKeys,
    foreignKey.columns.length = foreignKey.referencedColumns.length
  required : ∀ index ∈ table.primaryKey, ∀ column ∈ table.columns,
    column.name ∈ index.columns → column.nullable = false

namespace Table

variable {table edited : Table}

theorem mem_keyColumns {name : String} :
    name ∈ table.keyColumns ↔
      (∃ index ∈ table.allIndexes, name ∈ index.columns) ∨
        ∃ foreignKey ∈ table.foreignKeys, name ∈ foreignKey.columns := by
  simp [keyColumns]

theorem Spells.mono {names : List String} (h : table.Spells names)
    (hcolumns : ∀ column ∈ table.columns, ∃ other ∈ edited.columns, other.name = column.name) :
    edited.Spells names := by
  intro name hname
  obtain ⟨column, hcolumn, rfl⟩ := h name hname
  exact hcolumns column hcolumn

theorem mem_requireValues {names : List String} {columns : List Column} {column : Column}
    (h : column ∈ requireValues names columns) :
    ∃ other ∈ columns, column.name = other.name ∧ column.kind = other.kind ∧
      column.enumValues = other.enumValues ∧ (other.nullable = false → column.nullable = false) ∧
        (column.name ∈ names → column.nullable = false) := by
  obtain ⟨other, hother, rfl⟩ := List.mem_map.mp h
  refine ⟨other, hother, ?_⟩
  split
  next => simp
  next hnot =>
    refine ⟨rfl, rfl, rfl, id, fun hname => absurd ?_ hnot⟩
    exact List.any_eq_true.mpr ⟨other.name, hname, by simp [sameName]⟩

theorem admissible_requireValues {names : List String} {columns : List Column}
    (h : ∀ column ∈ columns, Admissible column) :
    ∀ column ∈ requireValues names columns, Admissible column := by
  intro column hcolumn
  obtain ⟨other, hother, _, hkind, hvalues, _⟩ := mem_requireValues hcolumn
  rw [Admissible, hkind, hvalues]
  exact h other hother

theorem requireValues_map_name (names : List String) (columns : List Column) :
    (requireValues names columns).map (·.name) = columns.map (·.name) := by
  rw [requireValues, List.map_map]
  refine List.map_congr_left fun column _ => ?_
  rw [Function.comp_apply]
  split <;> rfl

theorem exists_mem_requireValues (names : List String) {columns : List Column} {column : Column}
    (h : column ∈ columns) : ∃ other ∈ requireValues names columns, other.name = column.name := by
  have hname : column.name ∈ (requireValues names columns).map (·.name) := by
    rw [requireValues_map_name]
    exact List.mem_map_of_mem h
  exact List.mem_map.mp hname

theorem requireValues_distinct {names : List String} {columns : List Column}
    (h : Distinct columns) : Distinct (requireValues names columns) := by
  rw [distinct_iff_nodup] at h ⊢
  have hkeys : ∀ columns : List Column,
      columns.map key = (columns.map (·.name)).map lowerCase := by
    intro columns
    rw [List.map_map]
    rfl
  rw [hkeys] at h ⊢
  rwa [requireValues_map_name]

/-! ## The adding operations keep tables coherent -/

namespace Coherent

theorem addColumn (h : table.Coherent) {column : Column}
    (hok : table.addColumn column = .ok edited) : edited.Coherent := by
  obtain ⟨hfree, _, rfl⟩ := addColumn_eq_ok_iff.mp hok
  have hperm : (column :: table.columns).Perm (table.columns ++ [column]) :=
    (List.perm_append_singleton column table.columns).symm
  exact ⟨(distinct_cons.mpr ⟨hfree, h.columns⟩).perm hperm, h.primary, h.secondary, h.indexes,
    h.foreignKeys⟩

theorem setPrimaryKey (h : table.Coherent) {columns : List String}
    (hok : table.setPrimaryKey columns = .ok edited) : edited.Coherent := by
  obtain ⟨_, resolved, _, rfl⟩ := setPrimaryKey_eq_ok_iff.mp hok
  refine ⟨requireValues_distinct h.columns, ?_, h.secondary, h.indexes, h.foreignKeys⟩
  intro index hindex
  obtain rfl := Option.some.inj hindex
  rfl

theorem addIndex (h : table.Coherent) {index : Index}
    (hok : table.addIndex index = .ok edited) : edited.Coherent := by
  cases hkind : index.isPrimary with
  | true =>
      rw [addIndex_primary hkind] at hok
      exact h.setPrimaryKey hok
  | false =>
      obtain ⟨hfree, hname, resolved, _, rfl⟩ := (addIndex_eq_ok_iff hkind).mp hok
      have hfree' : lookup table.indexes (key { index with columns := resolved }) = none :=
        (h.lookup_secondary hname).symm.trans hfree
      refine ⟨h.columns, h.primary, ?_, ascending_insert h.indexes hfree', h.foreignKeys⟩
      intro other hother
      rcases List.mem_cons.mp ((insert_perm _ _).mem_iff.mp hother) with rfl | hother
      · exact ⟨hkind, hname⟩
      · exact h.secondary other hother

theorem addForeignKey (h : table.Coherent) {foreignKey : ForeignKey}
    (hok : table.addForeignKey foreignKey = .ok edited) : edited.Coherent := by
  obtain ⟨hfree, _, resolved, _, rfl⟩ := addForeignKey_eq_ok_iff.mp hok
  have hfree' : lookup table.foreignKeys (key { foreignKey with columns := resolved }) = none :=
    hfree
  exact ⟨h.columns, h.primary, h.secondary, h.indexes, ascending_insert h.foreignKeys hfree'⟩

end Coherent

/-! ## The adding operations keep tables well formed -/

namespace WellFormed

theorem addColumn (h : table.WellFormed) {column : Column}
    (hok : table.addColumn column = .ok edited) : edited.WellFormed := by
  have hcoherent := h.toCoherent.addColumn hok
  obtain ⟨hfree, hadmissible, rfl⟩ := addColumn_eq_ok_iff.mp hok
  have hspelled : Spells { table with columns := table.columns ++ [column] } table.keyColumns :=
    h.spelled.mono fun other hother => ⟨other, List.mem_append_left _ hother, rfl⟩
  refine ⟨hcoherent, ?_, hspelled, h.arity, ?_⟩
  · intro other hother
    rcases List.mem_append.mp hother with hother | hother
    · exact h.admissible other hother
    · rwa [List.mem_singleton.mp hother]
  · intro index hindex other hother hname
    rcases List.mem_append.mp hother with hother | hother
    · exact h.required index hindex other hother hname
    · -- the new column would have the name of an older one
      have hused : other.name ∈ table.keyColumns := mem_keyColumns.mpr
        (.inl ⟨index, List.mem_append_left _ (Option.mem_toList.mpr hindex), hname⟩)
      obtain ⟨older, holder, hsame⟩ := h.spelled _ hused
      rw [List.mem_singleton.mp hother] at hsame
      exact absurd (congrArg lowerCase hsame) (lookup_eq_none_iff.mp hfree older holder)

theorem setPrimaryKey (h : table.WellFormed) {columns : List String}
    (hok : table.setPrimaryKey columns = .ok edited) : edited.WellFormed := by
  have hcoherent := h.toCoherent.setPrimaryKey hok
  obtain ⟨hnone, resolved, hresolve, rfl⟩ := setPrimaryKey_eq_ok_iff.mp hok
  have hkept : ∀ column ∈ table.columns,
      ∃ other ∈ requireValues resolved table.columns, other.name = column.name :=
    fun _ => exists_mem_requireValues resolved
  refine ⟨hcoherent, admissible_requireValues h.admissible, ?_, h.arity, ?_⟩
  · intro name hname
    rcases mem_keyColumns.mp hname with ⟨index, hindex, hused⟩ | ⟨foreignKey, hmem, hused⟩
    · rcases List.mem_append.mp hindex with hindex | hindex
      · obtain rfl := Option.some.inj (Option.mem_toList.mp hindex)
        exact (spells_of_resolve hresolve).mono hkept name hused
      · exact h.spelled.mono hkept name
          (mem_keyColumns.mpr (.inl ⟨index, List.mem_append_right _ hindex, hused⟩))
    · exact h.spelled.mono hkept name (mem_keyColumns.mpr (.inr ⟨foreignKey, hmem, hused⟩))
  · intro index hindex column hcolumn hname
    obtain rfl := Option.some.inj hindex
    obtain ⟨_, _, _, _, _, _, hrequired⟩ := mem_requireValues hcolumn
    exact hrequired hname

theorem addIndex (h : table.WellFormed) {index : Index}
    (hok : table.addIndex index = .ok edited) : edited.WellFormed := by
  have hcoherent := h.toCoherent.addIndex hok
  cases hkind : index.isPrimary with
  | true =>
      rw [addIndex_primary hkind] at hok
      exact h.setPrimaryKey hok
  | false =>
      obtain ⟨_, _, resolved, hresolve, rfl⟩ := (addIndex_eq_ok_iff hkind).mp hok
      refine ⟨hcoherent, h.admissible, ?_, h.arity, h.required⟩
      intro name hused
      rcases mem_keyColumns.mp hused with ⟨other, hother, hused⟩ | hforeign
      · rcases List.mem_append.mp hother with hother | hother
        · exact h.spelled name
            (mem_keyColumns.mpr (.inl ⟨other, List.mem_append_left _ hother, hused⟩))
        · rcases List.mem_cons.mp ((insert_perm _ _).mem_iff.mp hother) with rfl | hother
          · exact spells_of_resolve hresolve name hused
          · exact h.spelled name
              (mem_keyColumns.mpr (.inl ⟨other, List.mem_append_right _ hother, hused⟩))
      · exact h.spelled name (mem_keyColumns.mpr (.inr hforeign))

theorem addForeignKey (h : table.WellFormed) {foreignKey : ForeignKey}
    (hok : table.addForeignKey foreignKey = .ok edited) : edited.WellFormed := by
  have hcoherent := h.toCoherent.addForeignKey hok
  obtain ⟨_, harity, resolved, hresolve, rfl⟩ := addForeignKey_eq_ok_iff.mp hok
  refine ⟨hcoherent, h.admissible, ?_, ?_, h.required⟩
  · intro name hused
    rcases mem_keyColumns.mp hused with hindex | ⟨other, hother, hused⟩
    · exact h.spelled name (mem_keyColumns.mpr (.inl hindex))
    · rcases List.mem_cons.mp ((insert_perm _ _).mem_iff.mp hother) with rfl | hother
      · exact spells_of_resolve hresolve name hused
      · exact h.spelled name (mem_keyColumns.mpr (.inr ⟨other, hother, hused⟩))
  · intro other hother
    rcases List.mem_cons.mp ((insert_perm _ _).mem_iff.mp hother) with rfl | hother
    · exact (length_of_resolve hresolve).trans harity
    · exact h.arity other hother

end WellFormed

theorem Built.wellFormed (h : table.Built) : table.WellFormed := by
  induction h with
  | new name =>
      exact ⟨⟨.nil, by simp, by simp, .nil, .nil⟩, by simp,
        by simp [Spells, keyColumns, allIndexes], by simp, by simp⟩
  | addColumn _ hok ih => exact ih.addColumn hok
  | setPrimaryKey _ hok ih => exact ih.setPrimaryKey hok
  | addIndex _ hok ih => exact ih.addIndex hok
  | addForeignKey _ hok ih => exact ih.addForeignKey hok

theorem WellFormed.declares (h : table.WellFormed) {index : Index}
    (hindex : index ∈ table.allIndexes) : table.Declares index.columns := fun name hname =>
  h.spelled.declares name (mem_keyColumns.mpr (.inl ⟨index, hindex, hname⟩))

/-- A well-formed table supports its own indexes. -/
theorem WellFormed.supports (h : table.WellFormed) {index : Index}
    (hindex : index ∈ table.allIndexes) : table.Supports index := by
  intro name hname
  obtain ⟨column, hcolumn, rfl⟩ :=
    h.spelled name (mem_keyColumns.mpr (.inl ⟨index, hindex, hname⟩))
  refine ⟨column, lookup_key h.columns hcolumn, fun hprimary => ?_⟩
  rcases List.mem_append.mp hindex with hindex | hindex
  · exact h.required index (Option.mem_toList.mp hindex) column hcolumn hname
  · rw [(h.secondary index hindex).1] at hprimary
    cases hprimary

end Table

end SchemaDelta
