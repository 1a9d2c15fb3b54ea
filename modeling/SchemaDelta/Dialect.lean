import SchemaDelta.Edit
import SchemaDelta.Sql.StringLiteral

/-!
# Dialects

A dialect writes edits as SQL statements.  What all dialects share is written
here once; a dialect says how it quotes names, writes types, and spells the
statements that databases do not agree on.
-/

namespace SchemaDelta

structure Dialect where
  name : String
  /-- The quote character of names. -/
  quote : Char
  columnType : Column → String
  /-- Spells the renaming of a table, from its quoted names. -/
  renameTable : (old new : String) → String
  /-- Spells the dropping of a foreign key, from quoted names. -/
  dropForeignKey : (table key : String) → String
  changeColumn : (table : String) → Change Column → String
  dropIndex : (table : String) → Index → String
  renameIndex : (table old new : String) → String

def columnSql (quote : Char) (type : String) (column : Column) : String :=
  Sql.quoteName quote column.name ++ " " ++ type
    ++ (if column.nullable then "" else " NOT NULL")
    ++ (match column.default with
      | some default => " DEFAULT " ++ default.sql
      | none => "")
    ++ (if column.autoIncrement then " AUTO_INCREMENT" else "")
    ++ (match column.comment with
      | some comment => " COMMENT " ++ Sql.stringLiteral comment
      | none => "")

namespace Dialect

def quoteName (dialect : Dialect) (name : String) : String :=
  Sql.quoteName dialect.quote name

def quoteNames (dialect : Dialect) (names : List String) : String :=
  ", ".intercalate (names.map dialect.quoteName)

def columnDefinition (dialect : Dialect) (column : Column) : String :=
  columnSql dialect.quote (dialect.columnType column) column

def indexDefinition (dialect : Dialect) (index : Index) : String :=
  let columns := "(" ++ dialect.quoteNames index.columns ++ ")"
  let named := dialect.quoteName index.name ++ " " ++ columns
  match index.kind with
  | .primary => "PRIMARY KEY " ++ columns
  | .unique => "UNIQUE KEY " ++ named
  | .fulltext => "FULLTEXT KEY " ++ named
  | .spatial => "SPATIAL KEY " ++ named
  | .plain => "KEY " ++ named

/-- A clause for an action other than the default. -/
def actionClause (event : String) (action : ReferentialAction) : String :=
  if action = .noAction then "" else " ON " ++ event ++ " " ++ action.sql

def foreignKeyDefinition (dialect : Dialect) (key : ForeignKey) : String :=
  "CONSTRAINT " ++ dialect.quoteName key.name
    ++ " FOREIGN KEY (" ++ dialect.quoteNames key.columns
    ++ ") REFERENCES " ++ dialect.quoteName key.referencedTable
    ++ " (" ++ dialect.quoteNames key.referencedColumns ++ ")"
    ++ actionClause "DELETE" key.onDelete
    ++ actionClause "UPDATE" key.onUpdate

def createTable (dialect : Dialect) (table : Table) : String :=
  let lines :=
    table.columns.map dialect.columnDefinition
      ++ table.allIndexes.map dialect.indexDefinition
      ++ table.foreignKeys.map dialect.foreignKeyDefinition
  "CREATE TABLE " ++ dialect.quoteName table.name ++ " (\n"
    ++ ",\n".intercalate (lines.map ("  " ++ ·)) ++ "\n)"

def alterTable (dialect : Dialect) (table : String) : TableEdit → String
  | .dropForeignKey name =>
      dialect.dropForeignKey (dialect.quoteName table) (dialect.quoteName name)
  | .dropIndex index => dialect.dropIndex table index
  | .dropColumn name => alter ++ "DROP COLUMN " ++ dialect.quoteName name
  | .changeColumn change => dialect.changeColumn table change
  | .addColumn column => alter ++ "ADD COLUMN " ++ dialect.columnDefinition column
  | .addIndex index => alter ++ "ADD " ++ dialect.indexDefinition index
  | .renameIndex old new => dialect.renameIndex table old new
  | .addForeignKey key => alter ++ "ADD " ++ dialect.foreignKeyDefinition key
where
  alter : String := "ALTER TABLE " ++ dialect.quoteName table ++ " "

/-- The statement that makes an edit, without a semicolon. -/
def statement (dialect : Dialect) : SchemaEdit → String
  | .createTable table => dialect.createTable table
  | .dropTable name => "DROP TABLE " ++ dialect.quoteName name
  | .renameTable old new =>
      dialect.renameTable (dialect.quoteName old) (dialect.quoteName new)
  | .alterTable name edit => dialect.alterTable name edit

def statements (dialect : Dialect) (diff : SchemaDiff) : List String :=
  diff.migration.map dialect.statement

def script (dialect : Dialect) (diff : SchemaDiff) : String :=
  String.join ((dialect.statements diff).map (· ++ ";\n"))

/-! ## MySQL -/

/-- The length of a string column that gives none. -/
def defaultStringLength : Nat := 255

def mysqlBinaryType (column : Column) : String :=
  match column.typeName, column.length with
  | "binary", some length =>
      (if column.fixed then "BINARY" else "VARBINARY") ++ (Sql.TypeArgs.length length).sql
  | _, _ => "BLOB"

/-- The arguments of a type that the model does not know. -/
def otherTypeArgs (column : Column) : Sql.TypeArgs :=
  match column.sizeArgs with
  | .none => if column.enumValues.isEmpty then .none else .values column.enumValues
  | args => args

def mysqlBaseType (column : Column) : String :=
  match column.kind with
  | .integer => if column.typeName = "integer" then "INT" else upperCase column.typeName
  | .boolean => "TINYINT(1)"
  | .decimal =>
      "DECIMAL" ++
        (Sql.TypeArgs.precisionScale (column.precision.getD 10) (column.scale.getD 0)).sql
  | .float => "DOUBLE"
  | .string =>
      (if column.fixed then "CHAR" else "VARCHAR")
        ++ (Sql.TypeArgs.length (column.length.getD defaultStringLength)).sql
  | .text => "TEXT"
  | .binary => mysqlBinaryType column
  | .datetime => upperCase column.typeName
  | .enumeration =>
      upperCase column.typeName ++ (Sql.TypeArgs.values column.enumValues).sql
  | .geometry => "GEOMETRY"
  | .json => "JSON"
  | .other => upperCase column.typeName ++ (otherTypeArgs column).sql

def mysqlColumnType (column : Column) : String :=
  mysqlBaseType column ++ (if column.unsigned then " UNSIGNED" else "")

/-- The quote character of MySQL names, the backtick. -/
def mysqlQuote : Char := '\x60'

def mysqlAlter (table : String) : String :=
  "ALTER TABLE " ++ Sql.quoteName mysqlQuote table ++ " "

def mysql : Dialect where
  name := "mysql"
  quote := mysqlQuote
  columnType := mysqlColumnType
  renameTable old new := "RENAME TABLE " ++ old ++ " TO " ++ new
  dropForeignKey table key := "ALTER TABLE " ++ table ++ " DROP FOREIGN KEY " ++ key
  changeColumn table change :=
    mysqlAlter table ++ "CHANGE " ++ Sql.quoteName mysqlQuote change.old.name ++ " "
      ++ columnSql mysqlQuote (mysqlColumnType change.new) change.new
  dropIndex table index :=
    mysqlAlter table ++
      if index.isPrimary then "DROP PRIMARY KEY"
      else "DROP INDEX " ++ Sql.quoteName mysqlQuote index.name
  renameIndex table old new :=
    mysqlAlter table ++ "RENAME INDEX " ++ Sql.quoteName mysqlQuote old ++ " TO "
      ++ Sql.quoteName mysqlQuote new

/-- Standard SQL where there is some, and MySQL elsewhere: types, changes of
columns, and the dropping and renaming of indexes. -/
def generic : Dialect :=
  { mysql with
    name := "generic"
    quote := '\x22'
    renameTable := fun old new => "ALTER TABLE " ++ old ++ " RENAME TO " ++ new
    dropForeignKey := fun table key => "ALTER TABLE " ++ table ++ " DROP CONSTRAINT " ++ key }

end Dialect

end SchemaDelta
