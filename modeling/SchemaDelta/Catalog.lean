import SchemaDelta.Build.Schema

/-!
# Schemas from catalog rows

A database server describes its tables in rows: one for each column, for each
column of an index and for each column of a foreign key.  Rows of columns are
turned into the column definitions that a dump would print, and built like
those, so that a database and its dump give the same schema.
-/

namespace SchemaDelta

structure ColumnRow where
  table : String
  name : String
  /-- The type with its options, such as `int(10) unsigned`. -/
  columnType : String
  nullable : Bool
  default : Option String
  extra : String
  comment : String
  deriving Repr, DecidableEq, Inhabited

structure IndexRow where
  table : String
  name : String
  nonUnique : Bool
  indexType : String
  position : Int
  column : String
  deriving Repr, DecidableEq, Inhabited

structure ForeignKeyRow where
  table : String
  name : String
  position : Int
  column : String
  referencedTable : String
  referencedColumn : String
  updateRule : String
  deleteRule : String
  deriving Repr, DecidableEq, Inhabited

structure Catalog where
  tables : List String
  columns : List ColumnRow
  indexes : List IndexRow
  foreignKeys : List ForeignKeyRow
  deriving Repr, DecidableEq, Inhabited

inductive CatalogError
  | columnType (row : ColumnRow) (error : Sql.StatementError)
  | schema (error : SchemaError)
  deriving Repr, DecidableEq

def CatalogError.message : CatalogError → String
  | columnType row error =>
      "Invalid column type \x60" ++ row.columnType ++ "\x60 for " ++ row.table ++ "."
        ++ row.name ++ ": " ++ error.message
  | schema error => "Inconsistent catalog: " ++ error.message

namespace Catalog

/-! ## Defaults -/

/-- The value of a text that begins with a string literal and holds nothing
else. -/
def stringValue? (text : String) : Option String :=
  match text.toList.head?, Sql.lexemes text.toList with
  | some '\x27', [.ok token, .ok _] =>
      match token.kind with
      | .string value => some value
      | _ => none
  | _, _ => none

def startsWithWord (word text : String) : Bool :=
  word.toList.isPrefixOf (upperCase text).toList

def meansTimestamp (text : String) : Bool :=
  ["CURRENT_TIMESTAMP", "LOCALTIME", "NOW("].any (startsWithWord · text)

def hasWord (word text : String) : Bool :=
  (Text.words text.toList).any fun part => sameName (String.ofList part) word

/-- What a reported default stands for.  Some servers report strings with quotes
and some without, and expressions without the parentheses of their
declaration, which are put back. -/
def defaultLiteral (text extra : String) : Sql.Literal :=
  match stringValue? text with
  | some value => .string value
  | none =>
      if sameName text "NULL" then .null
      else if meansTimestamp text then .expression text
      else if hasWord "DEFAULT_GENERATED" extra then
        .expression (if text.toList.head? = some '(' then text else "(" ++ text ++ ")")
      else if (Text.int64? text.toList).isSome then .number text
      else .string text

/-! ## Columns -/

/-- The options that the row adds to those of its type. -/
def rowOptions (row : ColumnRow) : List Sql.ColumnOption :=
  [if row.nullable then .null else .notNull]
    ++ row.default.toList.map (fun text => .default (defaultLiteral text row.extra))
    ++ (if hasWord "auto_increment" row.extra then [.autoIncrement] else [])
    ++ (if row.comment.isEmpty then [] else [.comment row.comment])

def columnDef (row : ColumnRow) : Except CatalogError Sql.ColumnDef :=
  match Sql.columnType row.columnType with
  | .ok (dataType, options) =>
      .ok ⟨row.name, dataType, options ++ rowOptions row, .point 0⟩
  | .error error => .error (.columnType row error)

/-- Tables under their exact names, and the diagnostics of their columns. -/
structure State where
  tables : SortedMap Table
  diagnostics : List Diagnostic

/-- Changes a table; a row of a table that is not listed has no effect. -/
def State.update (state : State) (name : String)
    (change : Table → Except CatalogError (Table × List Diagnostic)) :
    Except CatalogError State :=
  match state.tables.get? name with
  | none => .ok state
  | some table => do
      let (table, diagnostics) ← change table
      return ⟨state.tables.insert name table, state.diagnostics ++ diagnostics⟩

def addColumn (mapping : TypeMapping) (state : State) (row : ColumnRow) :
    Except CatalogError State :=
  state.update row.table fun table => do
    let written ← columnDef row
    let table ← (table.addColumn (Build.column mapping written)).mapError .schema
    return (table, Build.columnDiagnostics mapping row.table written)

/-! ## Keys -/

def groupLe (a b : String × String) : Bool :=
  a.1 < b.1 || a.1 == b.1 && a.2 ≤ b.2

/-- The rows of each group, in the order of the groups, and by position within
each group. -/
def groups {α : Type} (group : α → String × String) (position : α → Int)
    (rows : List α) : List ((String × String) × List α) :=
  let names := ((rows.map group).eraseDups).mergeSort groupLe
  names.map fun name =>
    (name, (rows.filter (group · == name)).mergeSort fun a b => position a ≤ position b)

def indexKind (row : IndexRow) : IndexKind :=
  if sameName row.name Index.primaryName then .primary
  else
    match upperCase row.indexType with
    | "FULLTEXT" => .fulltext
    | "SPATIAL" => .spatial
    | _ => if row.nonUnique then .plain else .unique

def addIndex (state : State) (group : (String × String) × List IndexRow) :
    Except CatalogError State :=
  let ((tableName, name), rows) := group
  match rows with
  | [] => .ok state
  | first :: _ =>
      state.update tableName fun table => do
        let index := ⟨name, indexKind first, rows.map (·.column)⟩
        return (← (table.addIndex index).mapError .schema, [])

def actionOf (rule : String) : ReferentialAction :=
  (ReferentialAction.ofSql? rule).getD .noAction

def addForeignKey (state : State) (group : (String × String) × List ForeignKeyRow) :
    Except CatalogError State :=
  let ((tableName, name), rows) := group
  match rows with
  | [] => .ok state
  | first :: _ =>
      state.update tableName fun table => do
        let key : ForeignKey :=
          { name
            columns := rows.map (·.column)
            referencedTable := first.referencedTable
            referencedColumns := rows.map (·.referencedColumn)
            onUpdate := actionOf first.updateRule
            onDelete := actionOf first.deleteRule }
        return (← (table.addForeignKey key).mapError .schema, [])

def emptyTables (names : List String) : SortedMap Table :=
  .ofList (names.map fun name => (name, { name }))

def assemble (catalog : Catalog) (database : String) (mapping : TypeMapping) :
    Except CatalogError BuildOutput := do
  let state ← catalog.columns.foldlM (addColumn mapping) ⟨emptyTables catalog.tables, []⟩
  let indexGroups := groups (fun row => (row.table, row.name)) IndexRow.position catalog.indexes
  let state ← indexGroups.foldlM addIndex state
  let keyGroups :=
    groups (fun row => (row.table, row.name)) ForeignKeyRow.position catalog.foreignKeys
  let state ← keyGroups.foldlM addForeignKey state
  let schema ← (state.tables.values.foldlM Schema.addTable { name := some database }).mapError
    .schema
  return ⟨schema, state.diagnostics⟩

end Catalog

end SchemaDelta
