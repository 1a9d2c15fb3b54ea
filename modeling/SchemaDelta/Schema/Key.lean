import SchemaDelta.IndexKind
import SchemaDelta.Name
import SchemaDelta.ReferentialAction

/-!
# Indexes and foreign keys

The primary key is an index of a kind and a name of its own.
-/

namespace SchemaDelta

structure Index where
  name : String
  kind : IndexKind
  columns : List String
  deriving Repr, DecidableEq, Inhabited

instance : Named Index := ⟨Index.name⟩

namespace Index

def primaryName : String := "PRIMARY"

def primary (columns : List String) : Index :=
  ⟨primaryName, .primary, columns⟩

def isPrimary (index : Index) : Bool :=
  index.kind = .primary

/-- Equality of everything but the name. -/
def sameDefinition (a b : Index) : Bool :=
  a.kind == b.kind && sameNames a.columns b.columns

end Index

structure ForeignKey where
  name : String
  columns : List String
  referencedTable : String
  referencedColumns : List String
  onUpdate : ReferentialAction := .noAction
  onDelete : ReferentialAction := .noAction
  deriving Repr, DecidableEq, Inhabited

instance : Named ForeignKey := ⟨ForeignKey.name⟩

namespace ForeignKey

/-- Equality of everything but the name. -/
def sameDefinition (a b : ForeignKey) : Bool :=
  sameNames a.columns b.columns
    && sameName a.referencedTable b.referencedTable
    && sameNames a.referencedColumns b.referencedColumns
    && a.onUpdate == b.onUpdate
    && a.onDelete == b.onDelete

end ForeignKey

end SchemaDelta
