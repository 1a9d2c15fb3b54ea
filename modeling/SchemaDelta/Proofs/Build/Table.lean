import SchemaDelta.Build.Table
import SchemaDelta.Proofs.Build.Column
import SchemaDelta.Proofs.Parsing.Table

/-!
# Tables are built again

The statement that a table is written as is built into the same table.
-/

namespace SchemaDelta

open Named Sql

/-! ## Clauses -/

def Index.clause (index : Index) : IndexDef :=
  ⟨some index.name, index.kind, index.columns⟩

theorem Index.written_secondary {index : Index} (h : index.isPrimary = false) :
    index.written = .index index.clause := by
  have hkind : index.kind ≠ .primary := by simpa [Index.isPrimary] using h
  unfold Index.written Index.clause
  cases hcases : index.kind
  case primary => exact absurd hcases hkind
  all_goals rfl

theorem Table.Coherent.map_written {table : Table} (h : table.Coherent) :
    table.allIndexes.map Index.written
      = table.primaryKey.toList.map (fun index => .primaryKey index.columns)
        ++ table.indexes.map (fun index => .index index.clause) := by
  rw [Table.allIndexes, List.map_append]
  congr 1
  · refine List.map_congr_left fun index hindex => ?_
    rw [h.primary index (Option.mem_toList.mp hindex)]
    rfl
  · exact List.map_congr_left fun index hindex =>
      Index.written_secondary (h.secondary index hindex).1

namespace Build

/-- The clauses of a statement that creates the table. -/
structure Lists (written : CreateTable) (table : Table) (columns : List ColumnDef) : Prop where
  columns : written.columns = columns
  primaryKeys : primaryKeyClauses written = table.primaryKey.toList.map (·.columns)
  indexes : indexClauses written = table.indexes.map (·.clause)
  foreignKeys : foreignKeyClauses written = table.foreignKeys.map (·.written)

theorem lists_of_definitions {written : CreateTable} {table : Table} {columns : List ColumnDef}
    (hcoherent : table.Coherent)
    (h : written.definitions = columns.map .column ++ table.allIndexes.map Index.written
      ++ table.foreignKeys.map (.foreignKey ·.written)) : Lists written table columns := by
  rw [hcoherent.map_written] at h
  constructor
  · simp [CreateTable.columns, h, List.filterMap_map]
  · simp [primaryKeyClauses, h, List.filterMap_map]
  · simp [indexClauses, h, List.filterMap_map]
  · simp [foreignKeyClauses, h, List.filterMap_map]

/-! ## Names that are given -/

theorem nameIndexes_clause (taken : List String) (indexes : List Index) :
    nameIndexes taken (indexes.map (·.clause)) = indexes := by
  induction indexes with
  | nil => rfl
  | cons index indexes ih =>
      change index :: nameIndexes taken (indexes.map (·.clause)) = _
      rw [ih]

theorem nameForeignKeys_written (table : String) (taken : List String) (ordinal : Nat)
    (keys : List ForeignKey) :
    nameForeignKeys table taken ordinal (keys.map (·.written))
      = keys.map fun key => (key.name, key.written) := by
  induction keys generalizing taken with
  | nil => rfl
  | cons key keys ih =>
      change (key.name, key.written) :: nameForeignKeys table (lowerCase key.name :: taken) ordinal
        (keys.map (·.written)) = _
      rw [ih, List.map_cons]

theorem foreignKey_written (key : ForeignKey) : foreignKey key.name key.written = key := by
  have haction : ∀ action : ReferentialAction, action.written.getD .noAction = action := by
    intro action
    cases action <;> rfl
  simp [foreignKey, ForeignKey.written, haction]

/-! ## Columns -/

theorem map_column_of_writtenAs {columns : List Column} {written : List ColumnDef}
    (h : List.Forall₂ Column.WrittenAs columns written)
    (hrestorable : ∀ column ∈ columns, column.Restorable) :
    written.map (column .mysql) = columns := by
  induction h with
  | nil => rfl
  | cons hfirst _ ih =>
      rw [List.map_cons, hfirst.rebuilt (hrestorable _ (by simp)),
        ih fun column hmem => hrestorable column (by simp [hmem])]

/-- No column is written as a key by itself. -/
theorem options_ne_key {column : Column} {written : ColumnDef} (h : column.WrittenAs written) :
    .unique ∉ written.options ∧ .primaryKey ∉ written.options := by
  obtain ⟨literal, -, hoptions⟩ := h.options
  rw [hoptions]
  unfold Column.optionEntries
  cases column.unsigned <;> cases column.nullable <;> cases column.autoIncrement <;>
    cases column.default <;> cases column.comment <;> simp

end Build

/-! ## Adding everything -/

/-- A fold that puts one item after another into place puts all of them there. -/
theorem foldlM_eq_ok_of_prefixes {ε α β : Type} {step : β → α → Except ε β}
    (put : List α → β) {items : List α} (h : ∀ front item back, items = front ++ item :: back →
      step (put front) item = .ok (put (front ++ [item]))) :
    items.foldlM step (put []) = .ok (put items) := by
  suffices hrest : ∀ back front, items = front ++ back →
      back.foldlM step (put front) = .ok (put items) from hrest items [] rfl
  intro back
  induction back with
  | nil =>
      rintro front rfl
      rw [List.append_nil]
      rfl
  | cons item back ih =>
      intro front hitems
      rw [List.foldlM_cons, h front item back hitems]
      exact ih (front ++ [item]) (by rw [hitems, List.append_assoc]; rfl)

/-- What comes last in order is inserted at the end. -/
theorem insert_of_ascending {α : Type} [Named α] {items : List α} {item : α}
    (h : Ascending (items ++ [item])) : Named.insert item items = items ++ [item] := by
  have hlt : ∀ other ∈ items, decide (key other < key item) = true := by
    intro other hother
    simpa using (List.pairwise_append.mp h).2.2 other hother item (by simp)
  rw [Named.insert, List.takeWhile_eq_self_iff.mpr hlt, List.dropWhile_eq_nil_iff.mpr hlt]

theorem lookup_front_of_distinct {α : Type} [Named α] {front back : List α} {item : α}
    (h : Distinct (front ++ item :: back)) : lookup front (key item) = none := by
  refine lookup_eq_none_iff.mpr fun other hother => ?_
  exact (List.pairwise_append.mp h).2.2 other hother item (by simp)

theorem ascending_front {α : Type} [Named α] {front back : List α} {item : α}
    (h : Ascending (front ++ item :: back)) : Ascending (front ++ [item]) := by
  refine h.sublist (List.Sublist.append_left ?_ front)
  exact (List.nil_sublist back).cons_cons item

namespace Table

variable {table : Table}

theorem foldlM_addColumn {name : String} {columns : List Column} (hdistinct : Distinct columns)
    (hadmissible : ∀ column ∈ columns, Admissible column) :
    columns.foldlM addColumn { name := name } = .ok { name := name, columns := columns } := by
  refine foldlM_eq_ok_of_prefixes (Table.mk name · none [] []) ?_
  rintro front column back rfl
  exact addColumn_eq_ok_iff.mpr
    ⟨lookup_front_of_distinct hdistinct, hadmissible column (by simp), rfl⟩

theorem foldlM_addIndex (h : table.WellFormed) :
    table.indexes.foldlM addIndex { table with indexes := [], foreignKeys := [] }
      = .ok { table with foreignKeys := [] } := by
  refine foldlM_eq_ok_of_prefixes (fun indexes => { table with indexes, foreignKeys := [] }) ?_
  intro front index back hindexes
  have hindex : index ∈ table.indexes := by simp [hindexes]
  obtain ⟨hkind, hname⟩ := h.secondary index hindex
  have hascending := h.indexes
  rw [hindexes] at hascending
  refine (addIndex_eq_ok_iff hkind).mpr ⟨?_, hname, index.columns, ?_, ?_⟩
  · refine lookup_eq_none_iff.mpr fun other hother => ?_
    rcases List.mem_append.mp hother with hother | hother
    · rw [h.key_primary (Option.mem_toList.mp hother)]
      exact hname.symm
    · exact lookup_eq_none_iff.mp (lookup_front_of_distinct hascending.distinct) other hother
  · refine Spells.resolve h.columns (fun name hused => ?_) _
    exact h.spelled name (mem_keyColumns.mpr (.inl ⟨index, List.mem_append_right _ hindex, hused⟩))
  · rw [insert_of_ascending (ascending_front hascending)]

theorem foldlM_addForeignKey (h : table.WellFormed) :
    table.foreignKeys.foldlM addForeignKey { table with foreignKeys := [] } = .ok table := by
  refine foldlM_eq_ok_of_prefixes (fun foreignKeys => { table with foreignKeys }) ?_
  intro front key back hkeys
  have hkey : key ∈ table.foreignKeys := by simp [hkeys]
  have hascending := h.foreignKeys
  rw [hkeys] at hascending
  refine addForeignKey_eq_ok_iff.mpr ⟨lookup_front_of_distinct hascending.distinct,
    h.arity key hkey, key.columns, ?_, ?_⟩
  · refine Spells.resolve h.columns (fun name hused => ?_) _
    exact h.spelled name (mem_keyColumns.mpr (.inr ⟨key, hkey, hused⟩))
  · rw [insert_of_ascending (ascending_front hascending)]

/-- The primary key is set on columns that are NOT NULL already. -/
theorem foldlM_setPrimaryKey (h : table.WellFormed) :
    (table.primaryKey.toList.map (·.columns)).foldlM setPrimaryKey
        { name := table.name, columns := table.columns }
      = .ok { table with indexes := [], foreignKeys := [] } := by
  cases hprimary : table.primaryKey with
  | none =>
      obtain ⟨name, columns, primaryKey, indexes, foreignKeys⟩ := table
      obtain rfl : primaryKey = none := hprimary
      rfl
  | some index =>
      have hindex := h.primary index hprimary
      have hmem : index ∈ table.allIndexes := by simp [allIndexes, hprimary]
      have hset : setPrimaryKey { name := table.name, columns := table.columns } index.columns
          = .ok { table with indexes := [], foreignKeys := [] } := by
        refine setPrimaryKey_eq_ok_iff.mpr ⟨rfl, index.columns, ?_, ?_⟩
        · refine Spells.resolve h.columns (fun name hused => ?_) _
          exact h.spelled name (mem_keyColumns.mpr (.inl ⟨index, hmem, hused⟩))
        · have hrequire := (h.supports hmem).requireValues_eq_self h.toCoherent
            (by rw [hindex]; rfl) rfl
          rw [hrequire, ← hindex, ← hprimary]
      simp [hset, hprimary, List.foldlM, bind, Except.bind, pure, Except.pure]

end Table

namespace Build

variable {table : Table} {written : CreateTable}

theorem exists_of_mem_right {α β : Type} {R : α → β → Prop} {as : List α} {bs : List β}
    (h : List.Forall₂ R as bs) {b : β} (hb : b ∈ bs) : ∃ a ∈ as, R a b := by
  induction h with
  | nil => cases hb
  | cons hfirst _ ih =>
      rcases List.mem_cons.mp hb with rfl | hb
      · exact ⟨_, by simp, hfirst⟩
      · obtain ⟨a, ha, hab⟩ := ih hb
        exact ⟨a, by simp [ha], hab⟩

theorem inlinePrimary?_eq_none (h : ∀ column ∈ written.columns, .primaryKey ∉ column.options) :
    inlinePrimary? written = none := by
  unfold inlinePrimary?
  rw [Option.map_eq_none_iff, List.find?_eq_none]
  simpa using h

theorem inlineIndexes_eq_nil (h : ∀ column ∈ written.columns, .unique ∉ column.options) :
    inlineIndexes written = [] := by
  unfold inlineIndexes
  rw [List.map_eq_nil_iff, List.filter_eq_nil_iff]
  simpa using h

/-- The statement that a table is written as is built into the table. -/
theorem table_of_writtenAs (hwritten : table.WrittenAs written) (h : table.WellFormed)
    (hrestorable : ∀ column ∈ table.columns, column.Restorable) :
    Build.table .mysql written = .ok table := by
  obtain ⟨hname, columns, hcolumns, hdefinitions⟩ := hwritten
  have hlists := lists_of_definitions h.toCoherent hdefinitions
  have hkeys : ∀ column ∈ written.columns, .unique ∉ column.options
      ∧ .primaryKey ∉ column.options := by
    rw [hlists.columns]
    intro column hcolumn
    obtain ⟨original, -, horiginal⟩ := exists_of_mem_right hcolumns hcolumn
    exact options_ne_key horiginal
  have hmap := map_column_of_writtenAs hcolumns hrestorable
  have hindexes : indexes written = table.indexes := by
    unfold indexes
    rw [inlineIndexes_eq_nil fun column hmem => (hkeys column hmem).1, hlists.indexes,
      List.nil_append]
    exact nameIndexes_clause _ _
  have hforeignKeys : foreignKeys written = table.foreignKeys := by
    unfold foreignKeys
    rw [hlists.foreignKeys, nameForeignKeys_written, List.map_map]
    simp [Function.comp_def, foreignKey_written]
  have hprimary : addPrimaryKeys written { name := table.name, columns := table.columns }
      = .ok { table with indexes := [], foreignKeys := [] } := by
    unfold addPrimaryKeys
    rw [hlists.primaryKeys, Table.foldlM_setPrimaryKey h,
      inlinePrimary?_eq_none fun column hmem => (hkeys column hmem).2]
    dsimp only [bind, Except.bind]
    cases table.primaryKey <;> rfl
  unfold Build.table
  dsimp only
  rw [hlists.columns, hmap, hname, Table.foldlM_addColumn h.columns h.admissible]
  change addPrimaryKeys written _ >>= _ = _
  rw [hprimary, hindexes, hforeignKeys]
  change table.indexes.foldlM Table.addIndex _ >>= _ = _
  rw [Table.foldlM_addIndex h]
  exact Table.foldlM_addForeignKey h

end Build

end SchemaDelta
