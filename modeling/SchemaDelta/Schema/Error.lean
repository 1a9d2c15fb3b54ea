/-!
# Violations of the schema model
-/

namespace SchemaDelta

/-- What holds on to columns: a key or a constraint of a table. -/
inductive KeyOwner
  | primaryKey
  | index (name : String)
  | foreignKey (name : String)
  deriving Repr, DecidableEq

def KeyOwner.describe : KeyOwner → String
  | primaryKey => "primary key"
  | index name => "index \x60" ++ name ++ "\x60"
  | foreignKey name => "foreign key \x60" ++ name ++ "\x60"

inductive SchemaError
  | unresolvedReference (table : String) (owner : KeyOwner) (column : String)
  | duplicateTable (table : String)
  | duplicateColumn (table column : String)
  | duplicateIndex (table index : String)
  | duplicateForeignKey (table foreignKey : String)
  | duplicatePrimaryKey (table : String)
  | emptyEnumeration (table column : String)
  | foreignKeyArity (table foreignKey : String) (columns referenced : Nat)
  | columnInUse (table column : String) (user : KeyOwner)
  | unknownTable (table : String)
  | unknownColumn (table column : String)
  | unknownIndex (table index : String)
  | unknownForeignKey (table foreignKey : String)
  deriving Repr, DecidableEq

namespace SchemaError

/-- A name as messages show it. -/
def ticked (name : String) : String :=
  "\x60" ++ name ++ "\x60"

def message : SchemaError → String
  | unresolvedReference table owner column =>
      owner.describe ++ " on table " ++ ticked table
        ++ " references unknown column " ++ ticked column
  | duplicateTable table =>
      "table " ++ ticked table ++ " is defined more than once"
  | duplicateColumn table column =>
      "column " ++ ticked column ++ " is defined more than once in table " ++ ticked table
  | duplicateIndex table index =>
      "index " ++ ticked index ++ " is defined more than once in table " ++ ticked table
  | duplicateForeignKey table foreignKey =>
      "foreign key " ++ ticked foreignKey
        ++ " is defined more than once in table " ++ ticked table
  | duplicatePrimaryKey table =>
      "table " ++ ticked table ++ " has more than one primary key"
  | emptyEnumeration table column =>
      "enumeration column " ++ ticked column ++ " in table " ++ ticked table
        ++ " has no values"
  | foreignKeyArity table foreignKey columns referenced =>
      "foreign key " ++ ticked foreignKey ++ " on table " ++ ticked table ++ " has "
        ++ toString columns ++ " columns but references " ++ toString referenced
  | columnInUse table column user =>
      "column " ++ ticked column ++ " of table " ++ ticked table ++ " is still used by "
        ++ (if user = .primaryKey then "the " else "") ++ user.describe
  | unknownTable table => "unknown table " ++ ticked table
  | unknownColumn table column =>
      "unknown column " ++ ticked column ++ " in table " ++ ticked table
  | unknownIndex table index =>
      "unknown index " ++ ticked index ++ " in table " ++ ticked table
  | unknownForeignKey table foreignKey =>
      "unknown foreign key " ++ ticked foreignKey ++ " in table " ++ ticked table

end SchemaError

end SchemaDelta
