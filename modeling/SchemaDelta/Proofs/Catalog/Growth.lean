import SchemaDelta.Proofs.Build.Type
import SchemaDelta.Proofs.Catalog.Schema
import SchemaDelta.Proofs.Schema.Valid

/-!
# What is kept of a row of a column

No row takes anything away from a table.  So the column that is built of a row is in the
table that its catalog is put together into, and at most the primary key has made it NOT
NULL.
-/

namespace SchemaDelta

open Named

/-! ## Tables that are added to -/

namespace Table

/-- Columns, indexes and foreign keys are added to a table. -/
inductive Grows (table : Table) : Table → Prop
  | refl : Grows table table
  | addColumn {middle edited : Table} {column : Column} (h : Grows table middle)
      (hok : middle.addColumn column = .ok edited) : Grows table edited
  | addIndex {middle edited : Table} {index : Index} (h : Grows table middle)
      (hok : middle.addIndex index = .ok edited) : Grows table edited
  | addForeignKey {middle edited : Table} {foreignKey : ForeignKey} (h : Grows table middle)
      (hok : middle.addForeignKey foreignKey = .ok edited) : Grows table edited

/-- The column is in the table, unless for being NULL. -/
def Retains (table : Table) (column : Column) : Prop :=
  ∃ nullable, { column with nullable } ∈ table.columns

variable {table middle edited : Table} {column : Column}

theorem retains_of_addColumn (hok : table.addColumn column = .ok edited) :
    edited.Retains column := by
  obtain ⟨_, _, rfl⟩ := addColumn_eq_ok_iff.mp hok
  exact ⟨column.nullable, List.mem_append_right _ List.mem_cons_self⟩

theorem Retains.requireValues (h : table.Retains column) (names : List String) :
    Retains { table with columns := requireValues names table.columns } column := by
  obtain ⟨nullable, hmem⟩ := h
  by_cases hnamed : names.any (sameName column.name) = true
  · exact ⟨false, List.mem_map.mpr ⟨_, hmem, if_pos hnamed⟩⟩
  · exact ⟨nullable, List.mem_map.mpr ⟨_, hmem, if_neg hnamed⟩⟩

theorem Retains.addIndex (h : table.Retains column) {index : Index}
    (hok : table.addIndex index = .ok edited) : edited.Retains column := by
  cases hkind : index.isPrimary with
  | true =>
      rw [addIndex_primary hkind] at hok
      obtain ⟨_, resolved, _, rfl⟩ := setPrimaryKey_eq_ok_iff.mp hok
      exact h.requireValues resolved
  | false =>
      obtain ⟨_, _, _, _, rfl⟩ := (addIndex_eq_ok_iff hkind).mp hok
      exact h

namespace Grows

theorem trans (hfirst : table.Grows middle) (hsecond : middle.Grows edited) :
    table.Grows edited := by
  induction hsecond with
  | refl => exact hfirst
  | addColumn _ hok ih => exact ih.addColumn hok
  | addIndex _ hok ih => exact ih.addIndex hok
  | addForeignKey _ hok ih => exact ih.addForeignKey hok

theorem name_eq (h : table.Grows edited) : edited.name = table.name := by
  induction h with
  | refl => rfl
  | addColumn _ hok ih => exact (name_of_addColumn hok).trans ih
  | addIndex _ hok ih => exact (name_of_addIndex hok).trans ih
  | addForeignKey _ hok ih => exact (name_of_addForeignKey hok).trans ih

theorem valid (h : table.Grows edited) (hvalid : table.Valid) : edited.Valid := by
  induction h with
  | refl => exact hvalid
  | addColumn _ hok ih => exact ih.addColumn hok
  | addIndex _ hok ih => exact ih.addIndex hok
  | addForeignKey _ hok ih => exact ih.addForeignKey hok

theorem retains (h : table.Grows edited) (hretains : table.Retains column) :
    edited.Retains column := by
  induction h with
  | refl => exact hretains
  | addColumn _ hok ih =>
      obtain ⟨nullable, hmem⟩ := ih
      obtain ⟨_, _, rfl⟩ := addColumn_eq_ok_iff.mp hok
      exact ⟨nullable, List.mem_append_left _ hmem⟩
  | addIndex _ hok ih => exact ih.addIndex hok
  | addForeignKey _ hok ih =>
      obtain ⟨_, _, _, _, rfl⟩ := addForeignKey_eq_ok_iff.mp hok
      exact ih

end Grows

end Table

/-! ## Catalogs that are put together -/

namespace Catalog

variable {mapping : TypeMapping} {state next last : State}

/-- All tables are still there, and grown. -/
def State.Grows (state next : State) : Prop :=
  ∀ name table, state.tables.get? name = some table →
    ∃ edited, next.tables.get? name = some edited ∧ table.Grows edited

theorem State.Grows.refl (state : State) : state.Grows state :=
  fun _ table hget => ⟨table, hget, .refl⟩

theorem State.Grows.trans (hfirst : state.Grows next) (hsecond : next.Grows last) :
    state.Grows last := by
  intro name table hget
  obtain ⟨middle, hmiddle, hgrows⟩ := hfirst name table hget
  obtain ⟨edited, hedited, hgrown⟩ := hsecond name middle hmiddle
  exact ⟨edited, hedited, hgrows.trans hgrown⟩

/-- A change puts what it makes of its table in the place of the table, if there is one. -/
theorem State.update_cases {name : String}
    {change : Table → Except CatalogError (Table × List Diagnostic)}
    (hok : state.update name change = .ok next) :
    state.tables.get? name = none ∧ next = state ∨
      ∃ table edited diagnostics, state.tables.get? name = some table ∧
        change table = .ok (edited, diagnostics) ∧
          next.tables.get? = Function.update state.tables.get? name (some edited) := by
  unfold State.update at hok
  split at hok
  next hnone => exact .inl ⟨hnone, (Except.ok.inj hok).symm⟩
  next table hget =>
    obtain ⟨⟨edited, diagnostics⟩, hedited, hok⟩ := bind_eq_ok_iff.mp hok
    obtain rfl := Except.ok.inj hok
    exact .inr ⟨table, edited, diagnostics, hget, hedited, SortedMap.get?_insert ..⟩

/-- A change that adds to its table adds to the state. -/
theorem State.grows_update {name : String}
    {change : Table → Except CatalogError (Table × List Diagnostic)}
    (hchange : ∀ table edited diagnostics, change table = .ok (edited, diagnostics) →
      table.Grows edited)
    (hok : state.update name change = .ok next) : state.Grows next := by
  rcases update_cases hok with ⟨-, rfl⟩ | ⟨table, edited, diagnostics, hget, hedited, hnext⟩
  · exact .refl next
  · intro other found hother
    rw [hnext]
    by_cases hname : other = name
    · subst hname
      obtain rfl := Option.some.inj (hget.symm.trans hother)
      exact ⟨edited, Function.update_self .., hchange _ _ _ hedited⟩
    · exact ⟨found, by rw [Function.update_of_ne hname, hother], .refl⟩

theorem added_of_row {row : ColumnRow} {table edited : Table} {diagnostics : List Diagnostic}
    (hchange : (do
      let written ← columnDef row
      let table ← (table.addColumn (Build.column mapping written)).mapError .schema
      return (table, Build.columnDiagnostics mapping row.table written))
        = .ok (edited, diagnostics)) :
    ∃ written, columnDef row = .ok written ∧
      table.addColumn (Build.column mapping written) = .ok edited := by
  obtain ⟨written, hwritten, hchange⟩ := bind_eq_ok_iff.mp hchange
  obtain ⟨added, hadded, hchange⟩ := bind_eq_ok_iff.mp hchange
  obtain ⟨rfl, -⟩ := Prod.ext_iff.mp (Except.ok.inj hchange)
  exact ⟨written, hwritten, mapError_eq_ok_iff.mp hadded⟩

theorem State.grows_update_key {name : String} {add : Table → Except SchemaError Table}
    (hadd : ∀ table edited, add table = .ok edited → table.Grows edited)
    (hok : (state.update name fun table => do
      return (← (add table).mapError .schema, [])) = .ok next) : state.Grows next := by
  refine State.grows_update (fun table edited diagnostics hchange => ?_) hok
  obtain ⟨added, hadded, hchange⟩ := bind_eq_ok_iff.mp hchange
  obtain ⟨rfl, -⟩ := Prod.ext_iff.mp (Except.ok.inj hchange)
  exact hadd table _ (mapError_eq_ok_iff.mp hadded)

theorem grows_addColumn {row : ColumnRow} (hok : addColumn mapping state row = .ok next) :
    state.Grows next := by
  refine State.grows_update (fun table edited diagnostics hchange => ?_) hok
  obtain ⟨written, -, hadded⟩ := added_of_row hchange
  exact Table.Grows.refl.addColumn hadded

theorem grows_addIndex {group : (String × String) × List IndexRow}
    (hok : addIndex state group = .ok next) : state.Grows next := by
  unfold addIndex at hok
  split at hok
  split at hok
  next =>
    obtain rfl := Except.ok.inj hok
    exact .refl state
  next => exact State.grows_update_key (fun _ _ hadded => .addIndex .refl hadded) hok

theorem grows_addForeignKey {group : (String × String) × List ForeignKeyRow}
    (hok : addForeignKey state group = .ok next) : state.Grows next := by
  unfold addForeignKey at hok
  split at hok
  split at hok
  next =>
    obtain rfl := Except.ok.inj hok
    exact .refl state
  next => exact State.grows_update_key (fun _ _ hadded => .addForeignKey .refl hadded) hok

/-- Steps that each add to the state add to it together. -/
theorem grows_foldlM {α : Type} {step : State → α → Except CatalogError State} {items : List α}
    (hstep : ∀ item before after, step before item = .ok after → before.Grows after)
    (hfold : items.foldlM step state = .ok next) : state.Grows next :=
  foldlM_keeps (P := state.Grows)
    (fun item _ before after hbefore hok => hbefore.trans (hstep item before after hok))
    (.refl state) hfold

/-- The row of a listed table puts the column that is built of it into the table. -/
theorem addColumn_retains {row : ColumnRow} {table : Table}
    (hget : state.tables.get? row.table = some table)
    (hok : addColumn mapping state row = .ok next) :
    ∃ written edited, columnDef row = .ok written ∧
      next.tables.get? row.table = some edited ∧
        edited.Retains (Build.column mapping written) := by
  rcases State.update_cases hok with ⟨hnone, -⟩ | ⟨found, edited, _, hfound, hchange, hnext⟩
  · rw [hget] at hnone
    cases hnone
  · obtain ⟨written, hwritten, hadded⟩ := added_of_row hchange
    refine ⟨written, edited, hwritten, ?_, Table.retains_of_addColumn hadded⟩
    rw [hnext, Function.update_self]

end Catalog

/-- Tables that are added to a schema are there in the end, like those that have been there. -/
theorem Schema.Keyed.lookup_of_addTables {schema edited : Schema} (h : schema.Keyed)
    {tables : List Table} (hfold : tables.foldlM Schema.addTable schema = .ok edited) :
    edited.Keyed ∧ ∀ table, lookup schema.tableList (key table) = some table ∨ table ∈ tables →
      lookup edited.tableList (key table) = some table := by
  induction tables generalizing schema with
  | nil =>
      obtain rfl := Except.ok.inj hfold
      exact ⟨h, fun table htable => htable.resolve_right List.not_mem_nil⟩
  | cons first tables ih =>
      rw [List.foldlM_cons] at hfold
      obtain ⟨middle, hadd, hrest⟩ := bind_eq_ok_iff.mp hfold
      obtain ⟨hfree, -⟩ := (addTable_eq_ok_iff h).mp hadd
      obtain ⟨added, hadded, hkeyed, hlookup⟩ := addTable_eq_ok h hfree
      obtain rfl := Except.ok.inj (hadd.symm.trans hadded)
      obtain ⟨hedited, hkept⟩ := ih hkeyed hrest
      refine ⟨hedited, fun table htable => hkept table ?_⟩
      rw [hlookup]
      rcases htable with hbefore | htable
      · have hne : key table ≠ key first := by
          intro hsame
          rw [hsame, hfree] at hbefore
          cases hbefore
        exact .inl (by rw [Function.update_of_ne hne, hbefore])
      · rcases List.mem_cons.mp htable with rfl | htable
        · exact .inl (Function.update_self ..)
        · exact .inr htable

/-! ## Columns of rows -/

namespace Catalog

variable {catalog : Catalog} {mapping : TypeMapping} {database : String} {output : BuildOutput}

theorem columnDef_eq_ok {row : ColumnRow} {written : Sql.ColumnDef}
    (h : columnDef row = .ok written) :
    ∃ dataType options, Sql.columnType row.columnType = .ok (dataType, options) ∧
      written = ⟨row.name, dataType, options ++ rowOptions row, .point 0⟩ := by
  unfold columnDef at h
  split at h
  next dataType options htype => exact ⟨dataType, options, htype, (Except.ok.inj h).symm⟩
  next => cases h

/-- What the row of a table puts into the table stays there while further rows are read. -/
theorem retains_of_row {rows : List ColumnRow} {start state : State}
    (hfold : rows.foldlM (addColumn mapping) start = .ok state) {row : ColumnRow}
    (hrow : row ∈ rows) {table : Table} (hget : start.tables.get? row.table = some table) :
    ∃ written edited, columnDef row = .ok written ∧ state.tables.get? row.table = some edited ∧
      table.Grows edited ∧ edited.Retains (Build.column mapping written) := by
  obtain ⟨front, back, rfl⟩ := List.append_of_mem hrow
  rw [List.foldlM_append] at hfold
  obtain ⟨before, hfront, hfold⟩ := bind_eq_ok_iff.mp hfold
  rw [List.foldlM_cons] at hfold
  obtain ⟨after, hstep, hback⟩ := bind_eq_ok_iff.mp hfold
  have hbefore := grows_foldlM (fun _ _ _ => grows_addColumn) hfront
  have hafter := grows_foldlM (fun _ _ _ => grows_addColumn) hback
  obtain ⟨first, hfirst, hgrows⟩ := hbefore row.table table hget
  obtain ⟨written, added, hwritten, hadded, hretains⟩ := addColumn_retains hfirst hstep
  obtain ⟨second, hsecond, hgrown⟩ := grows_addColumn hstep row.table first hfirst
  obtain rfl := Option.some.inj (hadded.symm.trans hsecond)
  obtain ⟨edited, hedited, hlast⟩ := hafter row.table added hadded
  exact ⟨written, edited, hwritten, hedited, (hgrows.trans hgrown).trans hlast,
    hlast.retains hretains⟩

/-- The rows of keys only add to what the rows of columns lead to. -/
theorem exists_states (hassemble : catalog.assemble database mapping = .ok output) :
    ∃ state final : State,
      catalog.columns.foldlM (addColumn mapping) ⟨emptyTables catalog.tables, []⟩ = .ok state ∧
        state.Grows final ∧
          final.tables.values.foldlM Schema.addTable { name := some database }
            = .ok output.schema := by
  obtain ⟨state, hcolumns, hassemble⟩ := bind_eq_ok_iff.mp hassemble
  obtain ⟨indexed, hindexes, hassemble⟩ := bind_eq_ok_iff.mp hassemble
  obtain ⟨final, hforeignKeys, hassemble⟩ := bind_eq_ok_iff.mp hassemble
  obtain ⟨schema, htables, hassemble⟩ := bind_eq_ok_iff.mp hassemble
  obtain rfl := Except.ok.inj hassemble
  have hindexed := grows_foldlM (fun _ _ _ => grows_addIndex) hindexes
  have hfinal := grows_foldlM (fun _ _ _ => grows_addForeignKey) hforeignKeys
  exact ⟨state, final, hcolumns, hindexed.trans hfinal, mapError_eq_ok_iff.mp htables⟩

/-- The column that is built of the row of a listed table is the one of its name in this table,
unless for being NULL. -/
theorem exists_column_of_row (hassemble : catalog.assemble database mapping = .ok output)
    {row : ColumnRow} (hrow : row ∈ catalog.columns) (hlisted : row.table ∈ catalog.tables) :
    ∃ written table nullable, columnDef row = .ok written ∧
      output.schema.table? row.table = some table ∧ table.name = row.table ∧
        table.column? row.name = some { Build.column mapping written with nullable } := by
  obtain ⟨state, final, hcolumns, hgrows, hschema⟩ := exists_states hassemble
  have hempty : (emptyTables catalog.tables).get? row.table = some { name := row.table } := by
    rw [get?_emptyTables, if_pos hlisted]
  obtain ⟨written, added, hwritten, hadded, hfirst, hretains⟩ :=
    retains_of_row hcolumns hrow hempty
  obtain ⟨table, hget, hlast⟩ := hgrows row.table added hadded
  obtain ⟨nullable, hcolumn⟩ := hlast.retains hretains
  have htable := hfirst.trans hlast
  have hname : table.name = row.table := htable.name_eq
  refine ⟨written, table, nullable, hwritten, ?_, hname, ?_⟩
  · have hnew : Schema.Keyed { name := some database } := (Schema.Built.new _).wellFormed.keyed
    obtain ⟨hkeyed, hkept⟩ := hnew.lookup_of_addTables hschema
    have hmem : table ∈ final.tables.values :=
      List.mem_map_of_mem (SortedMap.get?_eq_some_iff.mp hget)
    rw [Schema.table?, hkeyed.get?_eq_lookup, ← hname]
    exact hkept table (.inr hmem)
  · have hdistinct := (htable.valid (.new row.table)).columns
    have hnamed : row.name = (Build.column mapping written).name := by
      obtain ⟨_, _, _, hrow⟩ := columnDef_eq_ok hwritten
      rw [Build.name_column, hrow]
    rw [Table.column?, find?_eq_lookup, hnamed]
    exact lookup_key hdistinct hcolumn

end Catalog

end SchemaDelta
