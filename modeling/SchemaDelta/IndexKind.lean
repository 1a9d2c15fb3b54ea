/-!
# Kinds of indexes
-/

namespace SchemaDelta

inductive IndexKind
  | plain
  | unique
  | fulltext
  | spatial
  | primary
  deriving Repr, DecidableEq, Inhabited

/-- The word that reports and serialized schemas use. -/
def IndexKind.label : IndexKind → String
  | plain => "plain"
  | unique => "unique"
  | fulltext => "fulltext"
  | spatial => "spatial"
  | primary => "primary"

end SchemaDelta
