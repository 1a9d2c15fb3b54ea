import SchemaDelta.Diff.Table
import SchemaDelta.Schema.Basic

/-!
# Differences between two schemas

Tables are matched by name.  A removed and an added table are one renamed table
when they have columns, and the same ones by name.
-/

namespace SchemaDelta

structure SchemaDiff where
  added : List Table := []
  removed : List Table := []
  /-- Changed and renamed tables, in the order of their old names. -/
  changed : List TableDiff := []
  deriving Repr, DecidableEq, Inhabited

namespace SchemaDiff

def isEmpty (diff : SchemaDiff) : Bool :=
  diff.added.isEmpty && diff.removed.isEmpty && diff.changed.isEmpty

def changedTable? (diff : SchemaDiff) (name : String) : Option TableDiff :=
  Named.find? name diff.changed

end SchemaDiff

def Table.tablesMate (a b : Table) : Bool :=
  !a.columnSignature.isEmpty && b.columnSignature == a.columnSignature

def Schema.diff (old new : Schema) : SchemaDiff :=
  let matched := Delta.matched old.tableList new.tableList
  let pairing :=
    pairOff Table.tablesMate (Delta.unmatched old.tableList new.tableList)
      (Delta.unmatched new.tableList old.tableList)
  let changed := (matched.map fun change => change.old.diff change.new).filter (!·.isEmpty)
  let renamed := pairing.pairs.map fun change => change.old.diff change.new
  { added := pairing.added
    removed := pairing.removed
    changed := Named.sort (changed ++ renamed) }

end SchemaDelta
