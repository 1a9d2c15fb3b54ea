import SchemaDelta.Name
import SchemaDelta.Sql.StringLiteral
import SchemaDelta.Text.Blank

/-!
# Default values

Defaults are compared as texts.  The many spellings of the current timestamp are
reduced to one, so that they do not count as different.
-/

namespace SchemaDelta

inductive DefaultValue
  | integer (value : Int)
  | string (value : String)
  | expression (text : String)
  deriving Repr, DecidableEq, Inhabited

namespace DefaultValue

/-- The function names that mean the current timestamp.  The longer one of two
that begin alike comes first. -/
def timestampWords : List String :=
  ["CURRENT_TIMESTAMP", "LOCALTIMESTAMP", "LOCALTIME", "NOW"]

/-- The content of a text in parentheses. -/
def parenthesized? : List Char → Option (List Char)
  | '(' :: cs =>
      match cs.reverse with
      | ')' :: inner => some inner.reverse
      | _ => none
  | _ => none

/-- The current timestamp with the precision in parentheses.  Precision zero is
the same as none. -/
def timestampWithPrecision? (call : List Char) : Option String :=
  match (parenthesized? call).map Text.trim with
  | some precision =>
      if precision = [] ∨ precision = ['0'] then
        some "CURRENT_TIMESTAMP"
      else if precision.all Char.isDigit then
        some ("CURRENT_TIMESTAMP(" ++ String.ofList precision ++ ")")
      else
        none
  | none => none

/-- The canonical spelling of a text that means the current timestamp.  `NOW`
does so only when it is called. -/
def currentTimestamp? (text : List Char) : Option String :=
  let upper := text.map Char.toUpper
  match timestampWords.findSome? fun word => word.toList.isPrefixOf? upper with
  | none => none
  | some rest =>
      match Text.trimStart rest with
      | [] => if "NOW".toList.isPrefixOf upper then none else some "CURRENT_TIMESTAMP"
      | call => timestampWithPrecision? call

/-- An expression in its canonical spelling. -/
def ofExpression (text : String) : DefaultValue :=
  let trimmed := Text.trim text.toList
  expression ((currentTimestamp? trimmed).getD (String.ofList trimmed))

def sql : DefaultValue → String
  | integer value => toString value
  | string value => Sql.stringLiteral value
  | expression text => text

def text : DefaultValue → String
  | integer value => toString value
  | string value => value
  | expression text => text

/-- The word that serialized schemas use. -/
def label : DefaultValue → String
  | integer _ => "integer"
  | string _ => "string"
  | expression _ => "expression"

end DefaultValue

end SchemaDelta
