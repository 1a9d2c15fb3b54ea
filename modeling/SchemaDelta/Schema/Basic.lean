import SchemaDelta.Schema.Table
import SchemaDelta.SortedMap

/-!
# Schemas

A schema holds tables under their keys.
-/

namespace SchemaDelta

structure Schema where
  /-- The database, if it is known. -/
  name : Option String := none
  tables : SortedMap Table := .empty
  deriving DecidableEq, Inhabited

namespace Schema

/-- The tables in the order of their keys. -/
def tableList (schema : Schema) : List Table :=
  schema.tables.values

def table? (schema : Schema) (name : String) : Option Table :=
  schema.tables.get? (lowerCase name)

def addTable (schema : Schema) (table : Table) : Except SchemaError Schema :=
  if schema.tables.contains (Named.key table) then
    .error (.duplicateTable table.name)
  else
    .ok { schema with tables := schema.tables.insert (Named.key table) table }

def removeTable (schema : Schema) (name : String) : Except SchemaError (Table × Schema) :=
  match schema.table? name with
  | some table => .ok (table, { schema with tables := schema.tables.erase (lowerCase name) })
  | none => .error (.unknownTable name)

/-- Leaves out the tables that pass the test. -/
def withoutTables (schema : Schema) (test : Table → Bool) : Schema :=
  { schema with tables := schema.tables.filterValues fun table => !test table }

end Schema

end SchemaDelta
