import SchemaDelta.Comparison.Basic
import SchemaDelta.Dialect
import SchemaDelta.Json.Encode
import SchemaDelta.Json.Printer
import SchemaDelta.Report

/-!
# Printing comparisons
-/

namespace SchemaDelta

inductive OutputFormat
  | report
  | sql
  | json
  deriving Repr, DecidableEq

namespace Comparison

def header (comparison : Comparison) : String :=
  "===== " ++ comparison.old ++ " => " ++ comparison.new ++ " ====="

def toJson (comparison : Comparison) : JsonValue :=
  .object [
    ("name", .string comparison.group),
    ("from", .string comparison.old),
    ("to", .string comparison.new),
    ("diff", comparison.diff.toJson)]

def block (comparison : Comparison) : String :=
  "\n\n" ++ comparison.header ++ "\n\n" ++ Dialect.mysql.script comparison.diff

/-- A text under its header, with an empty line at the end. -/
def titled (comparison : Comparison) (text : String) : String :=
  comparison.header ++ "\n\n" ++ text ++ "\n"

def countDiffering (comparisons : List Comparison) : Nat :=
  comparisons.countP fun comparison => !comparison.diff.isEmpty

end Comparison

def OutputFormat.render (comparisons : List Comparison) : OutputFormat → String
  | report => String.join (comparisons.map fun comparison =>
      comparison.titled comparison.diff.report)
  | sql => String.join (comparisons.map fun comparison =>
      comparison.titled (Dialect.mysql.script comparison.diff))
  | json =>
      (JsonValue.object [("groups", .ofList Comparison.toJson comparisons)]).pretty ++ "\n"

end SchemaDelta
