import SchemaDelta.Build.Schema
import SchemaDelta.Diff.Schema
import SchemaDelta.Proofs.Build.Source
import SchemaDelta.Proofs.Parsing.Script

/-!
# Schemas are built again

The script that creates the tables of a schema, as the MySQL dialect writes it, builds
the same tables, as long as the schema is itself built from a script and the widths of
its columns can be written.
-/

namespace SchemaDelta

open Named Sql

theorem mapError_eq_ok_iff {ε δ α : Type} {f : ε → δ} {x : Except ε α} {a : α} :
    x.mapError f = .ok a ↔ x = .ok a := by
  cases x <;> simp [Except.mapError]

namespace Build

variable {settings : BuildSettings} {output rebuilt : BuildOutput}

/-! ## Schemas that scripts build -/

/-- All tables are under their keys, and built of statements that were read. -/
structure SourcedSchema (schema : Schema) : Prop where
  keyed : schema.Keyed
  tables : ∀ table ∈ schema.tableList, Sourced table

theorem SourcedSchema.addTable {schema edited : Schema} {table : Table}
    (h : SourcedSchema schema) (htable : Sourced table)
    (hok : schema.addTable table = .ok edited) : SourcedSchema edited := by
  obtain ⟨-, rfl⟩ := (Schema.addTable_eq_ok_iff h.keyed).mp hok
  exact ⟨h.keyed.insert table, Schema.forall_tableList_insert h.tables htable _⟩

/-- A statement adds the table that is built of it, or leaves the schema alone. -/
theorem addStatement_cases {read : Except StatementError Statement}
    (h : addStatement settings output read = .ok rebuilt) :
    (∃ written table, read = .ok (.createTable written) ∧
        Build.table settings.mapping written = .ok table ∧
          output.schema.addTable table = .ok rebuilt.schema) ∨
      rebuilt.schema = output.schema := by
  match read with
  | .ok (.createTable written) =>
      obtain ⟨table, htable, h⟩ := bind_eq_ok_iff.mp h
      obtain ⟨schema, hschema, h⟩ := bind_eq_ok_iff.mp h
      obtain rfl := Except.ok.inj h
      exact .inl ⟨written, table, rfl, mapError_eq_ok_iff.mp htable, mapError_eq_ok_iff.mp hschema⟩
  | .ok (.other span) =>
      obtain rfl := Except.ok.inj h
      exact .inr rfl
  | .error error =>
      rw [addStatement] at h
      split at h
      next => cases h
      next =>
        obtain rfl := Except.ok.inj h
        exact .inr rfl

/-- What the MySQL mapping builds from a script is built of statements that were read. -/
theorem sourced_build (hmapping : settings.mapping = .mysql) {script : String}
    (h : settings.build script = .ok output) : SourcedSchema output.schema := by
  refine foldlM_keeps (P := fun output => SourcedSchema output.schema)
    (fun read hread before after hbefore hstep => ?_) ⟨?_, ?_⟩ h
  · rcases addStatement_cases hstep with ⟨written, table, rfl, htable, hadd⟩ | hsame
    · rw [hmapping] at htable
      exact hbefore.addTable (sourced_table (Script.sound_statements hread) htable) hadd
    · rwa [hsame]
  · intro entry hentry
    cases hentry
  · intro table htable
    cases htable

end Build

theorem Table.Declared.writable {table : Table} (h : table.Declared) (hne : table.columns ≠ [])
    (hwidth : ∀ column ∈ table.columns, column.WidthKnown) : table.Writable := by
  have hrestorable : ∀ column ∈ table.columns, column.Restorable := fun column hcolumn =>
    (h.columns column hcolumn).restorable (hwidth column hcolumn)
  exact ⟨hne, fun column hcolumn => (hrestorable column hcolumn).typeName,
    fun column hcolumn => (hrestorable column hcolumn).typeArgs,
    fun column hcolumn => (hrestorable column hcolumn).default, h.indexes, h.foreignKeys⟩

/-! ## From an empty schema -/

/-- All that leads from an empty schema to another one is creating its tables. -/
theorem Schema.migration_of_empty (schema : Schema) :
    (({} : Schema).diff schema).migration = schema.tableList.map .createTable := by
  have hempty : ({} : Schema).tableList = [] := rfl
  have hunmatched : Delta.unmatched schema.tableList [] = schema.tableList :=
    List.filter_eq_self.mpr fun _ _ => rfl
  have hdiff : ({} : Schema).diff schema = { added := schema.tableList } := by
    unfold Schema.diff
    rw [hempty, hunmatched]
    simp [Delta.matched, Delta.unmatched, pairOff, Named.sort]
  rw [hdiff]
  simp [SchemaDiff.migration]

theorem Dialect.toList_mysql_script (schema : Schema) :
    (Dialect.mysql.script (({} : Schema).diff schema)).toList = creationText schema.tableList := by
  rw [script, String.toList_join, statements, schema.migration_of_empty, creationText]
  simp [List.flatMap_map, Dialect.statement]

/-! ## Building again -/

theorem SortedMap.insertEntry_of_ascending {α : Type} {entries : List (String × α)} {k : String}
    {value : α} (h : ∀ entry ∈ entries, entry.1 < k) :
    insertEntry k value entries = entries ++ [(k, value)] := by
  induction entries with
  | nil => rfl
  | cons entry entries ih =>
      have hlt : entry.1 < k := h entry (by simp)
      have hnot : ¬k < entry.1 := fun hgt => String.lt_irrefl _ (String.lt_trans hlt hgt)
      have hne : k ≠ entry.1 := by
        rintro rfl
        exact String.lt_irrefl _ hlt
      rw [insertEntry, if_neg hnot, if_neg hne, ih fun other hother => h other (by simp [hother])]
      rfl

def Table.entry (table : Table) : String × Table :=
  (key table, table)

theorem Schema.Keyed.entries {schema : Schema} (h : schema.Keyed) :
    schema.tables.entries = schema.tableList.map Table.entry := by
  unfold tableList SortedMap.values
  rw [List.map_map]
  refine (List.map_id _).symm.trans (List.map_congr_left fun entry hentry => ?_)
  exact Prod.ext (h entry hentry) rfl

theorem Schema.addTable_of_ascending {schema : Schema} {table : Table}
    (h : ∀ entry ∈ schema.tables.entries, entry.1 < key table) :
    ∃ edited, schema.addTable table = .ok edited ∧
      edited.tables.entries = schema.tables.entries ++ [table.entry] := by
  have hfree : schema.tables.contains (key table) = false := by
    refine List.any_eq_false.mpr fun entry hentry hsame => ?_
    have hlt := h entry hentry
    rw [beq_iff_eq.mp hsame] at hlt
    exact String.lt_irrefl _ hlt
  refine ⟨{ schema with tables := schema.tables.insert (key table) table }, ?_,
    SortedMap.insertEntry_of_ascending h⟩
  rw [addTable, hfree]
  rfl

namespace Build

variable {settings : BuildSettings}

theorem rejected_notMem_tableDiagnostics (mapping : TypeMapping) (written : CreateTable)
    (error : StatementError) : .rejected error ∉ tableDiagnostics mapping written := by
  intro hmem
  obtain ⟨column, -, hmem⟩ := List.mem_flatMap.mp hmem
  unfold columnDiagnostics at hmem
  dsimp only at hmem
  split at hmem <;> simp at hmem

/-- Statements that tables are read as put the tables behind the ones that are there. -/
theorem foldlM_addStatement (hmapping : settings.mapping = .mysql) {tables : List Table}
    {results : List (Except StatementError Statement)}
    (hread : List.Forall₂ Table.ReadAs tables results)
    (htables : ∀ table ∈ tables,
      table.WellFormed ∧ ∀ column ∈ table.columns, column.Restorable)
    (output : BuildOutput)
    (hascending : (output.schema.tables.entries ++ tables.map Table.entry).Pairwise
      fun a b => a.1 < b.1) :
    ∃ rebuilt, results.foldlM (addStatement settings) output = .ok rebuilt ∧
      (∀ error, .rejected error ∈ rebuilt.diagnostics → .rejected error ∈ output.diagnostics) ∧
        rebuilt.schema.tables.entries
          = output.schema.tables.entries ++ tables.map Table.entry := by
  induction hread generalizing output with
  | nil => exact ⟨output, rfl, fun _ => id, by simp⟩
  | @cons table _ tables results hfirst _ ih =>
      obtain ⟨written, rfl, hwritten⟩ := hfirst
      obtain ⟨hwellFormed, hrestorable⟩ := htables table (by simp)
      have htable := table_of_writtenAs hwritten hwellFormed hrestorable
      obtain ⟨schema, hadd, hentries⟩ :=
        output.schema.addTable_of_ascending fun entry hentry =>
          (List.pairwise_append.mp hascending).2.2 entry hentry table.entry (by simp)
      have hstep : addStatement settings output (.ok (.createTable written))
          = .ok ⟨schema, output.diagnostics ++ tableDiagnostics settings.mapping written⟩ := by
        rw [addStatement, hmapping, htable]
        dsimp only [Except.mapError, bind, Except.bind]
        rw [hadd]
        rfl
      rw [List.map_cons, ← List.singleton_append, ← List.append_assoc, ← hentries] at hascending
      obtain ⟨rebuilt, hfold, hdiagnostics, hrebuilt⟩ :=
        ih (fun other hother => htables other (by simp [hother])) ⟨schema, _⟩ hascending
      refine ⟨rebuilt, ?_, fun error hmem => ?_, ?_⟩
      · rw [List.foldlM_cons, hstep]
        exact hfold
      · rcases List.mem_append.mp (hdiagnostics error hmem) with hmem | hmem
        · exact hmem
        · exact absurd hmem (rejected_notMem_tableDiagnostics _ _ _)
      · rw [hrebuilt, hentries, List.append_assoc]
        rfl

end Build

/-- The script that creates all tables of a schema builds these tables again. -/
theorem Dialect.mysql_script_rebuilds {settings : BuildSettings} {source : String}
    {output : BuildOutput} (hmapping : settings.mapping = .mysql)
    (hbuild : settings.build source = .ok output)
    (hcolumns : ∀ table ∈ output.schema.tableList, table.columns ≠ [])
    (hwidth : ∀ table ∈ output.schema.tableList, ∀ column ∈ table.columns, column.WidthKnown)
    {rebuilding : BuildSettings} (hrebuilding : rebuilding.mapping = .mysql) :
    ∃ rebuilt, rebuilding.build (Dialect.mysql.script (({} : Schema).diff output.schema))
        = .ok rebuilt ∧
      (∀ error, .rejected error ∉ rebuilt.diagnostics) ∧
        rebuilt.schema.tables = output.schema.tables := by
  obtain ⟨hkeyed, hsourced⟩ := Build.sourced_build hmapping hbuild
  have hread := statements_creation
    (fun table hmem => (hsourced table hmem).2.writable (hcolumns table hmem) (hwidth table hmem))
    _ (toList_mysql_script output.schema) rebuilding.database
  have hascending : (output.schema.tableList.map Table.entry).Pairwise fun a b => a.1 < b.1 := by
    rw [← hkeyed.entries]
    exact output.schema.tables.ascending
  obtain ⟨rebuilt, hfold, hdiagnostics, hentries⟩ :=
    Build.foldlM_addStatement hrebuilding hread
      (fun table hmem => ⟨(hsourced table hmem).1.wellFormed, fun column hcolumn =>
        ((hsourced table hmem).2.columns column hcolumn).restorable
          (hwidth table hmem column hcolumn)⟩)
      ⟨{ name := rebuilding.database }, []⟩ hascending
  refine ⟨rebuilt, hfold, fun error hmem => ?_, SortedMap.ext ?_⟩
  · cases hdiagnostics error hmem
  · rw [hentries, hkeyed.entries]
    rfl

/-- A table whose name and default hold what could be taken for the end of them. -/
def Table.quoting : Table where
  name := "a\x60;"
  columns := [
    { name := "it's", kind := .string, typeName := "string", length := some 8, nullable := false,
      default := some (.string "'; --") }]
  primaryKey := some (.primary ["it's"])

/-- The table in other words than the dialect uses. -/
def Table.quotingSource : String :=
  "CREATE TABLE \x60a\x60\x60;\x60 (\x60it's\x60 VARCHAR(8) PRIMARY KEY DEFAULT '\\'; --')"

theorem Dialect.mysql_script_rebuilds_quoting :
    ({} : BuildSettings).build Table.quotingSource = .ok ⟨.ofTable .quoting, []⟩ ∧
    ∃ rebuilt, ({ database := some "shop", strict := true } : BuildSettings).build
        (Dialect.mysql.script (({} : Schema).diff (.ofTable .quoting))) = .ok rebuilt ∧
      (∀ error, .rejected error ∉ rebuilt.diagnostics) ∧
        rebuilt.schema.tables = (Schema.ofTable .quoting).tables := by
  have hbuild : ({} : BuildSettings).build Table.quotingSource
      = .ok ⟨.ofTable .quoting, []⟩ := by
    unfold Table.quotingSource
    rw [BuildSettings.build_of_toList _ String.toList_ofList, TypeMapping.mysql_eq]
    decide +kernel
  have hmapping : ({} : BuildSettings).mapping = .mysql := rfl
  have hrebuilding :
      ({ database := some "shop", strict := true } : BuildSettings).mapping = .mysql := rfl
  exact ⟨hbuild, mysql_script_rebuilds hmapping hbuild (by decide) (by decide) hrebuilding⟩

end SchemaDelta
