import SchemaDelta.Diff.Schema

/-!
# Reports

A difference as indented text, from the tables down to the properties of
columns.  Sections without entries are left out.
-/

namespace SchemaDelta.Report

def line (depth : Nat) (text : String) : String :=
  String.ofList (List.replicate (2 * depth) ' ') ++ text ++ "\n"

/-- A title and an entry for each item, unless there are none. -/
def listing {α : Type} (depth : Nat) (title : String) (items : List α)
    (entry : α → String) : String :=
  if items.isEmpty then
    ""
  else
    line depth title ++ String.join (items.map fun item => line (depth + 1) ("* " ++ entry item))

def nameList (names : List String) : String :=
  ", ".intercalate names

def describeIndex (index : Index) : String :=
  index.name ++ " " ++ index.kind.label ++ " (" ++ nameList index.columns ++ ")"

def describeForeignKey (key : ForeignKey) : String :=
  key.name ++ ": (" ++ nameList key.columns ++ ") => " ++ key.referencedTable
    ++ " (" ++ nameList key.referencedColumns ++ ") ON UPDATE " ++ key.onUpdate.sql
    ++ " ON DELETE " ++ key.onDelete.sql

def arrow (old new : String) : String :=
  old ++ " => " ++ new

/-- Flags stand bare, absent values stand for nothing, all else is quoted. -/
def displayValue (property : ColumnProperty) (value : String) : String :=
  if property.isFlag || value.isEmpty then value else "\"" ++ value ++ "\""

def propertyLine (change : Change Column) (property : ColumnProperty) : String :=
  line 4 ("* " ++ property.label ++ ": "
    ++ arrow (displayValue property (property.valueOf change.old))
      (displayValue property (property.valueOf change.new)))

/-- A changed column under its new name, with a line for each difference. -/
def changedColumn (change : Change Column) : String :=
  line 3 change.new.name
    ++ String.join ((change.old.differences change.new).map (propertyLine change))

def changedColumns (changes : List (Change Column)) : String :=
  if changes.isEmpty then ""
  else line 2 "Changed columns" ++ String.join (changes.map changedColumn)

def columns (delta : Delta Column) : String :=
  listing 2 "Added columns" delta.added (fun column =>
      column.name ++ ": " ++ column.typeSummary)
    ++ changedColumns delta.changed
    ++ listing 2 "Renamed columns" delta.renamed (fun change =>
      arrow change.old.name change.new.name)
    ++ listing 2 "Removed columns" delta.removed Column.name

def indexes (delta : Delta Index) : String :=
  listing 2 "Added indexes" delta.added describeIndex
    ++ listing 2 "Changed indexes" delta.changed (fun change =>
      arrow (describeIndex change.old) (describeIndex change.new))
    ++ listing 2 "Renamed indexes" delta.renamed (fun change =>
      arrow change.old.name change.new.name)
    ++ listing 2 "Removed indexes" delta.removed Index.name

def foreignKeys (delta : Delta ForeignKey) : String :=
  listing 2 "Added foreign keys" delta.added describeForeignKey
    ++ listing 2 "Changed foreign keys" delta.changed (fun change =>
      describeForeignKey change.new)
    ++ listing 2 "Renamed foreign keys" delta.renamed (fun change =>
      arrow change.old.name change.new.name)
    ++ listing 2 "Removed foreign keys" delta.removed ForeignKey.name

def table (diff : TableDiff) : String :=
  line 1 (match diff.newName with
      | some newName => arrow diff.name newName
      | none => diff.name)
    ++ columns diff.columns ++ indexes diff.indexes ++ foreignKeys diff.foreignKeys

def changedTables (diffs : List TableDiff) : String :=
  if diffs.isEmpty then "" else line 0 "Changed tables" ++ String.join (diffs.map table)

end SchemaDelta.Report

namespace SchemaDelta

/-- The difference as a text of whole lines. -/
def SchemaDiff.report (diff : SchemaDiff) : String :=
  if diff.isEmpty then
    Report.line 0 "No differences"
  else
    Report.listing 0 "New tables" diff.added (fun table =>
        table.name ++ ": " ++ Report.nameList (table.columns.map Column.name))
      ++ Report.listing 0 "Removed tables" diff.removed Table.name
      ++ Report.changedTables diff.changed

end SchemaDelta
