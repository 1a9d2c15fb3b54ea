import SchemaDelta.Proofs.Build.Schema
import SchemaDelta.Proofs.Edit.Coverage
import SchemaDelta.Proofs.Rendering.Statement

/-!
# Scripts fall into their statements

The script that leads from one schema to another is read without an error, and its
semicolons are those behind its statements, if both schemas are built from scripts.
-/

namespace SchemaDelta

open Sql

/-! ## Columns that were read can be written -/

/-- A column of no known width is written with a type that has one. -/
theorem Column.writtenType_of_not_widthKnown {column : Column} (h : ¬column.WidthKnown) :
    column.writtenType = ⟨"VARCHAR", .length Dialect.defaultStringLength⟩ ∨
      column.writtenType = ⟨"BLOB", .none⟩ := by
  have hcases : (column.kind ∈ [.string, .binary] ∧ column.fixed = false ∧ column.length = none) ∨
      (column.kind = .binary ∧ column.typeName = "blob") := by
    by_contra hneither
    apply h
    constructor
    · intro hkind _ hfixed hlength
      exact hneither (.inl ⟨hkind, hfixed, hlength⟩)
    · intro hkind hname
      exact absurd (.inr ⟨hkind, hname⟩) hneither
  rcases hcases with ⟨hkind, hfixed, hlength⟩ | ⟨hkind, hname⟩
  · have hkinds : column.kind = .string ∨ column.kind = .binary := by simpa using hkind
    rcases hkinds with hstring | hbinary
    · exact .inl (by simp [writtenType, hstring, hfixed, hlength])
    · exact .inr (by simp [writtenType, hbinary, hlength])
  · right
    unfold writtenType
    rw [hkind, hname]
    cases column.length <;> rfl

theorem Column.Declared.writable {column : Column} (h : column.Declared) : column.Writable := by
  by_cases hwidth : column.WidthKnown
  · have hrestorable := h.restorable hwidth
    exact ⟨hrestorable.typeName, hrestorable.typeArgs, h.default⟩
  · have hword : ∀ entry ∈ Dialect.mysqlTypeNames, IsTypeName entry.1 := fun entry hentry =>
      .one (isWord_of_mem_mysqlTypeNames entry hentry)
    rcases Column.writtenType_of_not_widthKnown hwidth with hwritten | hwritten
    · refine ⟨?_, ?_, h.default⟩
      · rw [hwritten]
        exact hword ("VARCHAR", ⟨.string, "string"⟩) (by decide)
      · rw [hwritten]
        exact TypeArgs.fits_length.mpr (by decide)
    · refine ⟨?_, ?_, h.default⟩
      · rw [hwritten]
        exact hword ("BLOB", ⟨.binary, "blob"⟩) (by decide)
      · rw [hwritten]
        exact TypeArgs.fits_none

/-! ## Edits write columns of the new side -/

theorem TableDiff.writable_of_demands {old new : Table}
    (hnew : ∀ column ∈ new.columns, column.Writable) {edit : TableEdit}
    (h : (old.diff new).Demands edit) : edit.Writable := by
  have hwithin := Table.columnDelta_within old new
  cases h with
  | addColumn hmem => exact hnew _ (hwithin.added _ hmem)
  | changeColumn hmem => exact hnew _ (hwithin.changed _ hmem).2
  | renameColumn hmem => exact hnew _ (hwithin.renamed _ hmem).2
  | _ => trivial

theorem SchemaDiff.writable_of_demands {old new : Schema}
    (hnew : ∀ table ∈ new.tableList, ∀ column ∈ table.columns, column.Writable)
    {edit : SchemaEdit} (h : (old.diff new).Demands edit) : edit.Writable := by
  cases h with
  | createTable hmem => exact hnew _ (Schema.mem_of_mem_added hmem)
  | alterTable hmem hedit =>
      obtain ⟨a, -, b, hb, rfl, -⟩ := Schema.exists_of_mem_changed hmem
      exact TableDiff.writable_of_demands (hnew b hb) hedit
  | _ => trivial

theorem Dialect.legible_of_mem_mysql_statements {old new : Schema}
    (hnew : ∀ table ∈ new.tableList, ∀ column ∈ table.columns, column.Writable) :
    ∀ statement ∈ mysql.statements (old.diff new), LegibleStatement statement := by
  intro statement hmem
  obtain ⟨edit, hedit, rfl⟩ := List.mem_map.mp hmem
  have hdemands := SchemaDiff.mem_migration_iff.mp hedit
  exact SchemaEdit.legibleStatement (SchemaDiff.writable_of_demands hnew hdemands)

/-! ## Scripts -/

theorem Dialect.toList_script_eq_terminated (dialect : Dialect) (diff : SchemaDiff) :
    (dialect.script diff).toList = terminated ((dialect.statements diff).map String.toList) := by
  rw [script, String.toList_join, terminated, List.flatMap_map, List.flatMap_map]
  simp

theorem Sql.exists_parts {statements : List String}
    (h : ∀ statement ∈ statements, LegibleStatement statement) :
    ∃ parts, List.Forall₂ (fun statement part => part ≠ [] ∧ LegibleText statement.toList part)
      statements parts := by
  induction statements with
  | nil => exact ⟨[], .nil⟩
  | cons statement statements ih =>
      obtain ⟨kinds, hkinds⟩ := h statement (by simp)
      obtain ⟨parts, hparts⟩ := ih fun other hother => h other (by simp [hother])
      exact ⟨kinds :: parts, .cons hkinds hparts⟩

theorem Sql.semicolon_notMem_of_legibleText {texts : List (List Char)}
    {parts : List (List TokenKind)} (h : List.Forall₂ LegibleText texts parts) :
    ∀ part ∈ parts, TokenKind.semicolon ∉ part := by
  induction h with
  | nil => simp
  | cons hfirst _ ih =>
      intro part hpart
      rcases List.mem_cons.mp hpart with rfl | hpart
      · exact hfirst.semicolon_notMem
      · exact ih part hpart

/-- The script that leads from any schema to one that is built from a script is read without
an error, and its semicolons split it into its statements as they are read by themselves. -/
theorem Dialect.mysql_script_splits {settings : BuildSettings}
    (hmapping : settings.mapping = .mysql) {source : String} {output : BuildOutput}
    (hbuild : settings.build source = .ok output) (old : Schema) :
    ∃ parts kinds,
      List.Forall₂ (fun statement part => part ≠ [] ∧ Lexes statement.toList part)
        (mysql.statements (old.diff output.schema)) parts ∧
      Lexes (mysql.script (old.diff output.schema)).toList kinds ∧
      kinds.splitOn .semicolon = parts ++ [[]] := by
  have hcolumns : ∀ table ∈ output.schema.tableList, ∀ column ∈ table.columns,
      column.Writable := by
    intro table htable column hcolumn
    have hdeclared := ((Build.sourced_build hmapping hbuild).tables table htable).2
    exact (hdeclared.columns column hcolumn).writable
  have hstatements : ∀ statement ∈ mysql.statements (old.diff output.schema),
      LegibleStatement statement := legible_of_mem_mysql_statements hcolumns
  obtain ⟨parts, hparts⟩ := exists_parts hstatements
  have hlegible : List.Forall₂ LegibleText
      ((mysql.statements (old.diff output.schema)).map String.toList) parts :=
    List.forall₂_map_left_iff.mpr (hparts.imp fun _ _ h => h.2)
  refine ⟨parts, parts.flatMap (· ++ [TokenKind.semicolon]), ?_, ?_, ?_⟩
  · exact hparts.imp fun _ _ h => ⟨h.1, h.2.lexes⟩
  · rw [toList_script_eq_terminated]
    exact lexes_terminated hlegible
  · exact splitOn_flatMap_append (semicolon_notMem_of_legibleText hlegible)

/-- A table with semicolons and marks of comments wherever a text can stand. -/
def Table.delimiting : Table where
  name := "t;"
  columns := [
    { name := "c", kind := .text, typeName := "text",
      default := some (.expression "(concat(';', '/*'))") },
    { name := "e", kind := .enumeration, typeName := "enum", enumValues := [";", "--"],
      comment := some "\x60;" }]

/-- The same table as it was before it had such texts. -/
def Table.undelimiting : Table where
  name := "t;"
  columns := [{ name := "c", kind := .text, typeName := "text" }]

def Table.delimitingSource : String :=
  "CREATE TABLE \x60t;\x60 (c TEXT DEFAULT (concat(';', '/*')), "
    ++ "e ENUM(';', '--') COMMENT '\x60;')"

theorem Dialect.mysql_script_splits_delimiting :
    ({} : BuildSettings).build Table.delimitingSource = .ok ⟨.ofTable .delimiting, []⟩ ∧
    ∃ parts kinds,
      List.Forall₂ (fun statement part => part ≠ [] ∧ Lexes statement.toList part)
        (mysql.statements ((Schema.ofTable .undelimiting).diff (.ofTable .delimiting))) parts ∧
      Lexes (mysql.script ((Schema.ofTable .undelimiting).diff (.ofTable .delimiting))).toList
        kinds ∧
      kinds.splitOn .semicolon = parts ++ [[]] := by
  have hbuild : ({} : BuildSettings).build Table.delimitingSource
      = .ok ⟨.ofTable .delimiting, []⟩ := by
    unfold Table.delimitingSource
    rw [BuildSettings.build_of_toList _ (toList_append_of_eq String.toList_ofList
      String.toList_ofList), TypeMapping.mysql_eq]
    decide +kernel
  have hmapping : ({} : BuildSettings).mapping = .mysql := rfl
  exact ⟨hbuild, mysql_script_splits hmapping hbuild (.ofTable .undelimiting)⟩

end SchemaDelta
