import SchemaDelta.Sql.StringLiteral

/-!
# Data types as written

The type of a column definition before it is mapped to the schema model: a name
and what stands in parentheses behind it.
-/

namespace SchemaDelta.Sql

inductive TypeArgs
  | none
  /-- One number: a length, or the precision of a numeric type. -/
  | length (length : Nat)
  | precisionScale (precision scale : Nat)
  /-- The string values of an enumeration, decoded. -/
  | values (values : List String)
  deriving Repr, DecidableEq, Inhabited

structure DataType where
  name : String
  args : TypeArgs
  deriving Repr, DecidableEq, Inhabited

def valueList (values : List String) : String :=
  ",".intercalate (values.map stringLiteral)

def TypeArgs.sql : TypeArgs → String
  | none => ""
  | length n => "(" ++ toString n ++ ")"
  | precisionScale p s => "(" ++ toString p ++ "," ++ toString s ++ ")"
  | values vs => "(" ++ valueList vs ++ ")"

def DataType.sql (dataType : DataType) : String :=
  dataType.name ++ dataType.args.sql

end SchemaDelta.Sql
