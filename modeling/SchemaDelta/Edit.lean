import SchemaDelta.Diff.Schema

/-!
# Edits

An edit is one change to a table or a schema, as a single statement of a
migration makes it.  A difference can be carried out in two ways: applied to a
schema at once, or written as a migration, whose statements respect that foreign
keys depend on other tables.
-/

namespace SchemaDelta

inductive TableEdit
  | dropForeignKey (name : String)
  | dropIndex (index : Index)
  | dropColumn (name : String)
  /-- Puts the new column in the place of the old one. -/
  | changeColumn (change : Change Column)
  | addColumn (column : Column)
  | addIndex (index : Index)
  | renameIndex (old new : String)
  | addForeignKey (key : ForeignKey)
  deriving Repr, DecidableEq

inductive SchemaEdit
  | createTable (table : Table)
  | dropTable (name : String)
  | renameTable (old new : String)
  | alterTable (name : String) (edit : TableEdit)
  deriving Repr, DecidableEq

namespace Table

/-- Takes an index away and adds it again under another name. -/
def renameIndex (table : Table) (old new : String) : Except SchemaError Table :=
  match table.index? old with
  | some index => do (← table.removeIndex old).addIndex { index with name := new }
  | none => .error (.unknownIndex table.name old)

def edit (table : Table) : TableEdit → Except SchemaError Table
  | .dropForeignKey name => table.removeForeignKey name
  | .dropIndex index => table.removeIndex index.name
  | .dropColumn name => table.removeColumn name
  | .changeColumn change => table.replaceColumn change.old.name change.new
  | .addColumn column => table.addColumn column
  | .addIndex index => table.addIndex index
  | .renameIndex old new => table.renameIndex old new
  | .addForeignKey key => table.addForeignKey key

/-- Makes edits in order until one fails.  Gives the table after the last one
that was made, and the error if there is one. -/
def editAll (table : Table) : List TableEdit → Table × Option SchemaError
  | [] => (table, none)
  | first :: rest =>
      match table.edit first with
      | .ok edited => edited.editAll rest
      | .error error => (table, some error)

end Table

namespace TableDiff

/-- The edits of a table in the order in which a difference is applied:
everything that goes away does so before anything comes. -/
def edits (diff : TableDiff) : List TableEdit :=
  diff.foreignKeys.dropped.map (.dropForeignKey ·.name)
    ++ diff.indexes.dropped.map .dropIndex
    ++ diff.columns.removed.map (.dropColumn ·.name)
    ++ (diff.columns.changed ++ diff.columns.renamed).map .changeColumn
    ++ diff.columns.added.map .addColumn
    ++ diff.indexes.created.map .addIndex
    ++ diff.foreignKeys.created.map .addForeignKey

/-- Applies the difference; the table gets its new name at last.  When an edit
fails, those in front of it stay made. -/
def applyTo (diff : TableDiff) (table : Table) : Table × Option SchemaError :=
  match table.editAll diff.edits with
  | (edited, none) => ({ edited with name := diff.newName.getD edited.name }, none)
  | failed => failed

end TableDiff

namespace Schema

def addTables (schema : Schema) (tables : List Table) : Except SchemaError Schema :=
  tables.foldlM addTable schema

def removeTables (schema : Schema) (tables : List Table) : Except SchemaError Schema :=
  tables.foldlM (fun schema table => do return (← schema.removeTable table.name).2) schema

def applyTableDiff (schema : Schema) (diff : TableDiff) : Except SchemaError Schema := do
  let (table, rest) ← schema.removeTable diff.name
  match diff.applyTo table with
  | (edited, none) => rest.addTable edited
  | (_, some error) => throw error

end Schema

/-- Makes an edit; an altered table keeps its place. -/
def Schema.edit (schema : Schema) : SchemaEdit → Except SchemaError Schema
  | .createTable table => schema.addTable table
  | .dropTable name => do return (← schema.removeTable name).2
  | .renameTable old new => do
      let (table, rest) ← schema.removeTable old
      rest.addTable { table with name := new }
  | .alterTable name edit => do
      let (table, rest) ← schema.removeTable name
      rest.addTable (← table.edit edit)

def Schema.editAll (schema : Schema) (edits : List SchemaEdit) : Except SchemaError Schema :=
  edits.foldlM Schema.edit schema

/-- Applies the difference to a schema, which should be the old side. -/
def SchemaDiff.applyTo (diff : SchemaDiff) (schema : Schema) :
    Except SchemaError Schema := do
  let schema ← schema.removeTables diff.removed
  let schema ← diff.changed.foldlM Schema.applyTableDiff schema
  schema.addTables diff.added

/-! ## Migrations -/

namespace TableDiff

/-- The edits of a table that has its new name, but for foreign keys. -/
def alterations (diff : TableDiff) : List TableEdit :=
  (diff.indexes.removed ++ diff.indexes.changed.map (·.old)).map .dropIndex
    ++ diff.columns.added.map .addColumn
    ++ (diff.columns.changed ++ diff.columns.renamed).map .changeColumn
    ++ diff.columns.removed.map (.dropColumn ·.name)
    ++ (diff.indexes.added ++ diff.indexes.changed.map (·.new)).map .addIndex
    ++ diff.indexes.renamed.map fun change => .renameIndex change.old.name change.new.name

def nameChange (diff : TableDiff) : List SchemaEdit :=
  diff.newName.toList.map (.renameTable diff.name)

end TableDiff

/-- The statements that lead from the old side to the new one: foreign keys go
first and come last, tables go before they come, and the other changes to a
table follow its renaming. -/
def SchemaDiff.migration (diff : SchemaDiff) : List SchemaEdit :=
  (diff.removed.flatMap fun table =>
      table.foreignKeys.map fun key => .alterTable table.name (.dropForeignKey key.name))
    ++ (diff.changed.flatMap fun table =>
      table.foreignKeys.dropped.map fun key =>
        .alterTable table.name (.dropForeignKey key.name))
    ++ diff.removed.map (.dropTable ·.name)
    ++ diff.added.map .createTable
    ++ (diff.changed.flatMap fun table =>
      table.nameChange ++ table.alterations.map (.alterTable table.targetName))
    ++ (diff.changed.flatMap fun table =>
      table.foreignKeys.created.map fun key =>
        .alterTable table.targetName (.addForeignKey key))

end SchemaDelta
