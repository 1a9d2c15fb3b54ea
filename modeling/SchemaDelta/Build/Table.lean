import SchemaDelta.Build.Column
import SchemaDelta.Schema.Table

/-!
# Building tables

Keys that a statement leaves unnamed get names of their own.  An index is named
after its first column, with the first number behind it that makes the name
free; the names that the statement itself gives to indexes are never free.  A
foreign key is named after its table and numbered.
-/

namespace SchemaDelta.Build

open Sql (CreateTable IndexDef ForeignKeyDef Definition)

/-- The first number whose candidate is free, when the folded names are taken.  No
more numbers than there are names can be in vain, as long as the candidates
differ. -/
def firstFree (taken : List String) (candidate : Nat → String) : Nat :=
  ((List.range taken.length).find? fun k => !taken.contains (lowerCase (candidate k))).getD
    taken.length

/-- The names for an index on a column: the name of the column, and then with a
number behind it, from two on. -/
def indexNameCandidate (column : String) (k : Nat) : String :=
  if k = 0 then column else column ++ "_" ++ toString (k + 1)

def freeIndexName (taken : List String) (columns : List String) : String :=
  let column := columns.head?.getD "index"
  indexNameCandidate column (firstFree taken (indexNameCandidate column))

/-- Names indexes in order, with the given folded names taken. -/
def nameIndexes (taken : List String) : List IndexDef → List Index
  | [] => []
  | written :: rest =>
      match written.name with
      | some name => ⟨name, written.kind, written.columns⟩ :: nameIndexes taken rest
      | none =>
          let name := freeIndexName taken written.columns
          ⟨name, written.kind, written.columns⟩ :: nameIndexes (lowerCase name :: taken) rest

def foreignKeyNameCandidate (table : String) (ordinal : Nat) : String :=
  table ++ "_ibfk_" ++ toString ordinal

/-- Names foreign keys in order.  `taken` holds the folded names of the keys in
front, and `ordinal` the last number that was given. -/
def nameForeignKeys (table : String) (taken : List String) (ordinal : Nat) :
    List ForeignKeyDef → List (String × ForeignKeyDef)
  | [] => []
  | written :: rest =>
      match written.name with
      | some name =>
          (name, written) :: nameForeignKeys table (lowerCase name :: taken) ordinal rest
      | none =>
          let candidate k := foreignKeyNameCandidate table (ordinal + 1 + k)
          let k := firstFree taken candidate
          (candidate k, written)
            :: nameForeignKeys table (lowerCase (candidate k) :: taken) (ordinal + 1 + k) rest

def foreignKey (name : String) (written : ForeignKeyDef) : ForeignKey where
  name := name
  columns := written.columns
  referencedTable := written.referencedTable
  referencedColumns := written.referencedColumns
  onUpdate := written.onUpdate.getD .noAction
  onDelete := written.onDelete.getD .noAction

def inlineIndexes (written : CreateTable) : List IndexDef :=
  (written.columns.filter (·.options.contains .unique)).map fun column =>
    ⟨none, .unique, [column.name]⟩

/-- The first column that is a primary key by itself. -/
def inlinePrimary? (written : CreateTable) : Option String :=
  (written.columns.find? (·.options.contains .primaryKey)).map (·.name)

def indexClauses (written : CreateTable) : List IndexDef :=
  written.definitions.filterMap fun
    | .index index => some index
    | _ => none

def primaryKeyClauses (written : CreateTable) : List (List String) :=
  written.definitions.filterMap fun
    | .primaryKey columns => some columns
    | _ => none

def foreignKeyClauses (written : CreateTable) : List ForeignKeyDef :=
  written.definitions.filterMap fun
    | .foreignKey key => some key
    | _ => none

def indexes (written : CreateTable) : List Index :=
  let unnamed := inlineIndexes written ++ indexClauses written
  nameIndexes ((Index.primaryName :: unnamed.filterMap (·.name)).map lowerCase) unnamed

def foreignKeys (written : CreateTable) : List ForeignKey :=
  (nameForeignKeys written.name [] 0 (foreignKeyClauses written)).map fun (name, key) =>
    foreignKey name key

/-- A primary key clause goes before a column that is one by itself. -/
def addPrimaryKeys (written : CreateTable) (table : Table) : Except SchemaError Table := do
  let table ← (primaryKeyClauses written).foldlM Table.setPrimaryKey table
  match table.primaryKey, inlinePrimary? written with
  | none, some column => table.setPrimaryKey [column]
  | _, _ => return table

def table (mapping : TypeMapping) (written : CreateTable) : Except SchemaError Table := do
  let columns := written.columns.map (column mapping)
  let table ← columns.foldlM Table.addColumn { name := written.name }
  let table ← addPrimaryKeys written table
  let table ← (indexes written).foldlM Table.addIndex table
  (foreignKeys written).foldlM Table.addForeignKey table

def tableDiagnostics (mapping : TypeMapping) (written : CreateTable) : List Diagnostic :=
  written.columns.flatMap (columnDiagnostics mapping written.name)

end SchemaDelta.Build
