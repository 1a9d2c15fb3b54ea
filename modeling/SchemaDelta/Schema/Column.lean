import SchemaDelta.Schema.DefaultValue
import SchemaDelta.Sql.DataType

/-!
# Columns
-/

namespace SchemaDelta

inductive ColumnKind
  | integer
  | decimal
  | float
  | string
  | text
  | boolean
  | datetime
  | binary
  | enumeration
  | geometry
  | json
  | other
  deriving Repr, DecidableEq, Inhabited

namespace ColumnKind

def all : List ColumnKind :=
  [integer, decimal, float, string, text, boolean, datetime, binary,
    enumeration, geometry, json, other]

def label : ColumnKind → String
  | integer => "integer"
  | decimal => "decimal"
  | float => "float"
  | string => "string"
  | text => "text"
  | boolean => "boolean"
  | datetime => "datetime"
  | binary => "binary"
  | enumeration => "enumeration"
  | geometry => "geometry"
  | json => "json"
  | other => "other"

def ofLabel? (label : String) : Option ColumnKind :=
  all.find? (·.label == label)

end ColumnKind

structure Column where
  name : String
  kind : ColumnKind
  /-- The canonical name of the type, such as `integer` or `string`. -/
  typeName : String
  length : Option Nat := none
  precision : Option Nat := none
  scale : Option Nat := none
  nullable : Bool := true
  unsigned : Bool := false
  autoIncrement : Bool := false
  default : Option DefaultValue := none
  comment : Option String := none
  /-- Whether values are padded to the length. -/
  fixed : Bool := false
  enumValues : List String := []
  deriving Repr, DecidableEq, Inhabited

instance : Named Column := ⟨Column.name⟩

namespace Column

/-- A comment, unless it is empty. -/
def commentOf (text : String) : Option String :=
  if text.isEmpty then none else some text

/-- What stands behind the type name when a length or a precision and a scale
are known. -/
def sizeArgs (column : Column) : Sql.TypeArgs :=
  match column.length, column.precision, column.scale with
  | some n, _, _ => .length n
  | none, some p, some s => .precisionScale p s
  | _, _, _ => .none

def typeSummary (column : Column) : String :=
  let args :=
    if column.kind = .enumeration then .values column.enumValues else column.sizeArgs
  column.typeName ++ args.sql

end Column

end SchemaDelta
