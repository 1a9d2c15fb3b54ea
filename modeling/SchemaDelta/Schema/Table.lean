import SchemaDelta.Schema.Column
import SchemaDelta.Schema.Error
import SchemaDelta.Schema.Key

/-!
# Tables

Columns keep their order of declaration; indexes and foreign keys are kept in
the order of their names.  Every operation checks what it is about to do and
fails without a trace: column names stay distinct, keys name columns of the
table in their declared spelling, and the columns of a primary key are made NOT
NULL when the key is set.
-/

namespace SchemaDelta

structure Table where
  name : String
  columns : List Column := []
  primaryKey : Option Index := none
  indexes : List Index := []
  foreignKeys : List ForeignKey := []
  deriving Repr, DecidableEq, Inhabited

instance : Named Table := ⟨Table.name⟩

namespace Table

/-! ## Looking up -/

def column? (table : Table) (name : String) : Option Column :=
  Named.find? name table.columns

def columnPosition? (table : Table) (name : String) : Option Nat :=
  Named.findIdx? name table.columns

/-- The primary key, if any, and the other indexes. -/
def allIndexes (table : Table) : List Index :=
  table.primaryKey.toList ++ table.indexes

def index? (table : Table) (name : String) : Option Index :=
  Named.find? name table.allIndexes

def foreignKey? (table : Table) (name : String) : Option ForeignKey :=
  Named.find? name table.foreignKeys

/-- The keys of the columns in order, by which renamed tables are recognised. -/
def columnSignature (table : Table) : List String :=
  (table.columns.map Named.key).mergeSort (· ≤ ·)

/-- The declared spellings of the named columns. -/
def resolveColumns (table : Table) (owner : KeyOwner) (names : List String) :
    Except SchemaError (List String) :=
  names.mapM fun name =>
    match table.column? name with
    | some column => .ok column.name
    | none => .error (.unresolvedReference table.name owner name)

/-- The first key that a column belongs to. -/
def columnUser? (table : Table) (name : String) : Option KeyOwner :=
  let uses (columns : List String) := columns.any (sameName · name)
  match table.allIndexes.find? fun index => uses index.columns with
  | some index => some (if index.isPrimary then .primaryKey else .index index.name)
  | none =>
      (table.foreignKeys.find? fun key => uses key.columns).map fun key =>
        .foreignKey key.name

/-! ## Adding -/

/-- Whether a column fits beside `others`. -/
def checkColumn (table : Table) (others : List Column) (column : Column) :
    Except SchemaError Unit :=
  if Named.contains column.name others then
    .error (.duplicateColumn table.name column.name)
  else if column.kind = .enumeration ∧ column.enumValues = [] then
    .error (.emptyEnumeration table.name column.name)
  else
    .ok ()

def addColumn (table : Table) (column : Column) : Except SchemaError Table := do
  table.checkColumn table.columns column
  return { table with columns := table.columns ++ [column] }

/-- Makes the named columns NOT NULL. -/
def requireValues (names : List String) (columns : List Column) : List Column :=
  columns.map fun column =>
    if names.any (sameName column.name) then { column with nullable := false } else column

def setPrimaryKey (table : Table) (columns : List String) : Except SchemaError Table := do
  if table.primaryKey.isSome then
    throw (.duplicatePrimaryKey table.name)
  let columns ← table.resolveColumns .primaryKey columns
  return { table with
    columns := requireValues columns table.columns
    primaryKey := some (.primary columns) }

/-- An index of the primary kind sets the primary key, whatever its name. -/
def addIndex (table : Table) (index : Index) : Except SchemaError Table := do
  if index.isPrimary then
    table.setPrimaryKey index.columns
  else if (table.index? index.name).isSome || sameName index.name Index.primaryName then
    throw (.duplicateIndex table.name index.name)
  else
    let columns ← table.resolveColumns (.index index.name) index.columns
    return { table with indexes := Named.insert { index with columns } table.indexes }

def addForeignKey (table : Table) (key : ForeignKey) : Except SchemaError Table := do
  if (table.foreignKey? key.name).isSome then
    throw (.duplicateForeignKey table.name key.name)
  else if key.columns.length ≠ key.referencedColumns.length then
    throw (.foreignKeyArity table.name key.name key.columns.length
      key.referencedColumns.length)
  else
    let columns ← table.resolveColumns (.foreignKey key.name) key.columns
    return { table with foreignKeys := Named.insert { key with columns } table.foreignKeys }

/-! ## Changing and removing -/

def requireColumn (table : Table) (name : String) : Except SchemaError Nat :=
  match table.columnPosition? name with
  | some position => .ok position
  | none => .error (.unknownColumn table.name name)

/-- Fails when a key still needs the column. -/
def releaseColumn (table : Table) (name : String) : Except SchemaError Unit :=
  match table.columnUser? name with
  | some user => .error (.columnInUse table.name name user)
  | none => .ok ()

def removeColumn (table : Table) (name : String) : Except SchemaError Table := do
  let position ← table.requireColumn name
  table.releaseColumn name
  return { table with columns := table.columns.eraseIdx position }

/-- Puts a column in the place of another one, which no key may need if its name
goes away. -/
def replaceColumn (table : Table) (name : String) (column : Column) :
    Except SchemaError Table := do
  let position ← table.requireColumn name
  unless sameName column.name name do
    table.releaseColumn name
  table.checkColumn (table.columns.eraseIdx position) column
  return { table with columns := table.columns.set position column }

def removeIndex (table : Table) (name : String) : Except SchemaError Table :=
  if sameName name Index.primaryName then
    if table.primaryKey.isSome then
      .ok { table with primaryKey := none }
    else
      .error (.unknownIndex table.name name)
  else if Named.contains name table.indexes then
    .ok { table with indexes := Named.erase name table.indexes }
  else
    .error (.unknownIndex table.name name)

def removeForeignKey (table : Table) (name : String) : Except SchemaError Table :=
  if Named.contains name table.foreignKeys then
    .ok { table with foreignKeys := Named.erase name table.foreignKeys }
  else
    .error (.unknownForeignKey table.name name)

end Table

end SchemaDelta
