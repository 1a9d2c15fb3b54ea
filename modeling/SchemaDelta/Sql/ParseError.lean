import SchemaDelta.Sql.Token
import SchemaDelta.Text.Blank

/-!
# Parse errors

An error says what is wrong, where, in which statement of the script, and quotes
the source around it.
-/

namespace SchemaDelta.Sql

inductive ParseProblem
  /-- A token other than the expected one. -/
  | unexpected (expected : String) (found : TokenKind)
  /-- The statement ends where something else is expected. -/
  | endOfStatement (expected : String)
  /-- A number that is no unsigned 32-bit integer. -/
  | invalidNumber (text : String)
  /-- A table that is made from another table or from a query. -/
  | tableSource (table clause : String)
  | inlineReferences
  /-- A type with more than two numbers, or with numbers and strings. -/
  | typeArguments
  /-- A problem described by the caller. -/
  | described (text : String)
  deriving Repr, DecidableEq

namespace ParseProblem

def text : ParseProblem → String
  | unexpected expected found =>
      "unexpected token: expected " ++ expected ++ ", found " ++ found.describe
  | endOfStatement expected =>
      "unexpected end of statement: expected " ++ expected
  | invalidNumber text => "invalid number \x60" ++ text ++ "\x60"
  | tableSource table clause =>
      "CREATE TABLE " ++ table ++ " " ++ clause ++ " is not supported"
  | inlineReferences =>
      "inline REFERENCES is not supported, use a FOREIGN KEY clause"
  | typeArguments => "unsupported type arguments"
  | described text => text

/-- What the parser would have accepted, if it was looking for one thing. -/
def expected? : ParseProblem → Option String
  | unexpected expected _ => some expected
  | endOfStatement expected => some expected
  | _ => none

def found? : ParseProblem → Option TokenKind
  | unexpected _ found => some found
  | endOfStatement _ => some .endOfInput
  | _ => none

end ParseProblem

structure ParseError where
  problem : ParseProblem
  span : Span
  /-- The number of the statement in its script, from zero. -/
  statement : Nat
  /-- The source around the error, shortened. -/
  fragment : String
  deriving Repr, DecidableEq

/-- How many characters of the source an error quotes. -/
def excerptLimit : Nat := 80

/-- The text on one line, with single spaces for its runs of blanks, and cut off
behind the limit. -/
def excerpt (text : String) : String :=
  let line := [' '].intercalate (Text.words text.toList)
  if line.length ≤ excerptLimit then
    String.ofList line
  else
    String.ofList (line.take excerptLimit) ++ "..."

namespace ParseError

def ofProblem (problem : ParseProblem) (span : Span) : ParseError :=
  ⟨problem, span, 0, ""⟩

def withFragment (error : ParseError) (text : String) : ParseError :=
  { error with fragment := excerpt text }

/-- Places the error in a script.  An error without a fragment gets the text of
its statement up to the error. -/
def inStatement (error : ParseError) (index : Nat) (source : List Char) (start : Nat) :
    ParseError :=
  { error with
    statement := index
    fragment :=
      if error.fragment.isEmpty then
        excerpt (Span.text ⟨start, max error.span.stop start⟩ source)
      else
        error.fragment }

def message (error : ParseError) : String :=
  error.problem.text ++ " in statement " ++ toString error.statement
    ++ (if error.fragment.isEmpty then "" else " near \x60" ++ error.fragment ++ "\x60")
    ++ " at position " ++ toString error.span.start ++ ".." ++ toString error.span.stop

end ParseError

end SchemaDelta.Sql
