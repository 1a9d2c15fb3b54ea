import SchemaDelta.Diff.ColumnProperty
import SchemaDelta.Diff.Delta
import SchemaDelta.Schema.Table

/-!
# Differences between two versions of a table

A removed and an added column are one renamed column when they are of the same
kind and sit in the same gap between the columns that both versions have.
Indexes and foreign keys are renamed when nothing but their name differs; the
primary key never is.
-/

namespace SchemaDelta

structure TableDiff where
  /-- The name on the old side. -/
  name : String
  newName : Option String := none
  columns : Delta Column := {}
  indexes : Delta Index := {}
  foreignKeys : Delta ForeignKey := {}
  deriving Repr, DecidableEq, Inhabited

instance : Named TableDiff := ⟨TableDiff.name⟩

namespace TableDiff

def targetName (diff : TableDiff) : String :=
  diff.newName.getD diff.name

def isEmpty (diff : TableDiff) : Bool :=
  diff.newName.isNone && diff.columns.isEmpty && diff.indexes.isEmpty
    && diff.foreignKeys.isEmpty

end TableDiff

/-! ## Columns -/

/-- A column and its place: the key of the nearest column in front of it that the
other version of the table has, too. -/
structure PlacedColumn where
  column : Column
  place : Option String
  deriving Repr, DecidableEq, Inhabited

instance : Named PlacedColumn := ⟨fun placed => placed.column.name⟩

namespace PlacedColumn

/-- Puts columns in their places; `place` is the one of the first column. -/
def placeAll (others : List Column) (place : Option String) :
    List Column → List PlacedColumn
  | [] => []
  | column :: columns =>
      let next :=
        if Named.contains column.name others then some (Named.key column) else place
      ⟨column, place⟩ :: placeAll others next columns

def unchanged (a b : PlacedColumn) : Bool :=
  (a.column.differences b.column).isEmpty

def mates (a b : PlacedColumn) : Bool :=
  a.column.kind == b.column.kind && a.place == b.place

end PlacedColumn

namespace Table

def placedColumns (table other : Table) : List PlacedColumn :=
  PlacedColumn.placeAll other.columns none table.columns

def columnDelta (old new : Table) : Delta Column :=
  (Delta.between PlacedColumn.unchanged PlacedColumn.mates (old.placedColumns new)
    (new.placedColumns old)).map (·.column)

/-! ## Keys -/

def indexesMate (a b : Index) : Bool :=
  !a.isPrimary && !b.isPrimary && a.sameDefinition b

def indexDelta (old new : Table) : Delta Index :=
  .between Index.sameDefinition indexesMate old.allIndexes new.allIndexes

/-- A table keeps its foreign keys in the order of their names. -/
def foreignKeyDelta (old new : Table) : Delta ForeignKey :=
  .unsorted ForeignKey.sameDefinition ForeignKey.sameDefinition
    old.foreignKeys new.foreignKeys

def diff (old new : Table) : TableDiff where
  name := old.name
  newName := if sameName old.name new.name then none else some new.name
  columns := columnDelta old new
  indexes := indexDelta old new
  foreignKeys := foreignKeyDelta old new

end Table

end SchemaDelta
