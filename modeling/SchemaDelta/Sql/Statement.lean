import SchemaDelta.IndexKind
import SchemaDelta.ReferentialAction
import SchemaDelta.Sql.DataType
import SchemaDelta.Sql.Span

/-!
# Statements

What a script says, before any of it is checked against the schema model.
-/

namespace SchemaDelta.Sql

/-- The value behind `DEFAULT` or `ON UPDATE`. -/
inductive Literal
  | null
  /-- A number, as written but for a plus sign. -/
  | number (text : String)
  | string (value : String)
  /-- Anything else, as written. -/
  | expression (text : String)
  deriving Repr, DecidableEq, Inhabited

inductive ColumnOption
  | null
  | notNull
  | unsigned
  | zerofill
  | default (value : Literal)
  | autoIncrement
  | comment (text : String)
  | collate (name : String)
  | characterSet (name : String)
  | onUpdate (value : Literal)
  | primaryKey
  | unique
  /-- A generated column; the expression as written, with its parentheses. -/
  | generated (expression : String)
  deriving Repr, DecidableEq, Inhabited

structure ColumnDef where
  name : String
  dataType : DataType
  options : List ColumnOption
  span : Span
  deriving Repr, DecidableEq, Inhabited

structure IndexDef where
  /-- The name, if the clause gives one. -/
  name : Option String
  kind : IndexKind
  columns : List String
  deriving Repr, DecidableEq, Inhabited

structure ForeignKeyDef where
  /-- The name of the constraint, or else the one of its index. -/
  name : Option String
  columns : List String
  referencedTable : String
  referencedColumns : List String
  onUpdate : Option ReferentialAction
  onDelete : Option ReferentialAction
  deriving Repr, DecidableEq, Inhabited

/-- One entry of a definition list. -/
inductive Definition
  | column (column : ColumnDef)
  | primaryKey (columns : List String)
  | index (index : IndexDef)
  | foreignKey (foreignKey : ForeignKeyDef)
  deriving Repr, DecidableEq, Inhabited

structure CreateTable where
  /-- The name without a qualifier. -/
  name : String
  temporary : Bool
  ifNotExists : Bool
  definitions : List Definition
  /-- From `CREATE` to the end of the definition list; table options are not
  part of it. -/
  span : Span
  deriving Repr, DecidableEq, Inhabited

inductive Statement
  | createTable (table : CreateTable)
  /-- A statement that says nothing about the inspected database. -/
  | other (span : Span)
  deriving Repr, DecidableEq, Inhabited

def CreateTable.columns (table : CreateTable) : List ColumnDef :=
  table.definitions.filterMap fun
    | .column column => some column
    | _ => none

end SchemaDelta.Sql
