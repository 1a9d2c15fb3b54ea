import SchemaDelta.Sql.Parser.Basic
import SchemaDelta.Sql.Statement

/-!
# Parsing columns

A column definition is a name, a data type and options in any order up to the
next comma or closing parenthesis.  Options without a counterpart in the schema
model, such as storage hints and checks, are read and dropped.
-/

namespace SchemaDelta.Sql.Parser

/-- The word that may follow the first word of a type name. -/
def secondTypeWord? (first : String) : Option String :=
  match lowerCase first with
  | "double" => some "PRECISION"
  | "character" | "char" => some "VARYING"
  | _ => none

/-- The first word of a type name; all keywords are admitted, for the sake of
`SET` and `CHARACTER`. -/
def typeWord : Parser String := do
  let token ← current
  match token.kind with
  | .identifier _ | .keyword _ =>
      advance
      return token.text
  | _ => unexpected "data type"

def typeName : Parser String := do
  let first ← typeWord
  let second ← current
  match secondTypeWord? first with
  | some word =>
      if isWord word second.kind then
        advance
        return first ++ " " ++ second.text
      else
        return first
  | none => return first

/-- A number, or a decoded string. -/
def typeArgument : Parser (Nat ⊕ String) := do
  match (← current).kind with
  | .number _ => return .inl (← number)
  | .string _ => return .inr (← string)
  | _ => unexpected "type argument"

/-- How type arguments are read: as numbers or as values, but not as both. -/
def typeArgsOf? (arguments : List (Nat ⊕ String)) : Option TypeArgs :=
  let numbers := arguments.filterMap Sum.getLeft?
  let values := arguments.filterMap Sum.getRight?
  match numbers, values with
  | [], values => some (.values values)
  | [n], [] => some (.length n)
  | [precision, scale], [] => some (.precisionScale precision scale)
  | _, _ => none

def typeArgs : Parser TypeArgs := do
  let start := (← current).span.start
  expectKind .leftParen
  let arguments ← if ← atKind .rightParen then pure [] else commaSeparated typeArgument
  expectKind .rightParen
  match typeArgsOf? arguments with
  | some args => return args
  | none => fail ⟨start, (← get).lastStop⟩ .typeArguments

def dataType : Parser DataType := do
  let name ← typeName
  let args ← if ← atKind .leftParen then typeArgs else pure .none
  return { name, args }

/-- A number behind a sign; a plus sign is dropped. -/
def signedNumber (sign : Char) : Parser Literal := do
  advance
  match (← current).kind with
  | .number text =>
      advance
      return .number (if sign = '-' then "-" ++ text else text)
  | _ => unexpected "number"

/-- A word, called or not.  A word with an underscore in front names the
character set of the string behind it, if there is one. -/
def wordLiteral : Parser Literal := do
  let word ← current
  advance
  match word.text.toList.head?, (← current).kind with
  | some '_', .string value =>
      advance
      return .string value
  | _, _ =>
      if ← atKind .leftParen then
        let _ ← group
      let input ← get
      return .expression (Span.text ⟨word.span.start, input.lastStop⟩ input.source)

def literal : Parser Literal := do
  match (← current).kind with
  | .keyword .NULL =>
      advance
      return .null
  | .string value =>
      advance
      return .string value
  | .number text =>
      advance
      return .number text
  | .symbol sign =>
      if sign = '-' ∨ sign = '+' then signedNumber sign else unexpected "literal"
  | .binary text =>
      advance
      return .expression text
  | .leftParen => return .expression (← group)
  | .identifier _ | .keyword _ => wordLiteral
  | _ => unexpected "literal"

/-- The expression of a generated column, behind `AS`. -/
def generatedColumn : Parser ColumnOption := do
  let expression ← group
  let _ ← eat fun kind => isWord "VIRTUAL" kind || isWord "STORED" kind
  return .generated expression

/-- The option that begins with the keyword, which is current. -/
def keywordOption (keyword : Keyword) : Parser (Option ColumnOption) := do
  match keyword with
  | .NOT =>
      advance
      expectKeyword .NULL
      return some .notNull
  | .NULL =>
      advance
      return some .null
  | .UNSIGNED =>
      advance
      return some .unsigned
  | .SIGNED =>
      advance
      return none
  | .ZEROFILL =>
      advance
      return some .zerofill
  | .DEFAULT =>
      advance
      return some (.default (← literal))
  | .AUTO_INCREMENT =>
      advance
      return some .autoIncrement
  | .COMMENT =>
      advance
      return some (.comment (← string))
  | .COLLATE =>
      advance
      return some (.collate (← nameOrString))
  | .CHARACTER =>
      advance
      expectKeyword .SET
      return some (.characterSet (← nameOrString))
  | .CHARSET =>
      advance
      return some (.characterSet (← nameOrString))
  | .ON =>
      advance
      expectKeyword .UPDATE
      return some (.onUpdate (← literal))
  | .PRIMARY =>
      advance
      expectKeyword .KEY
      return some .primaryKey
  | .KEY =>
      advance
      return some .primaryKey
  | .UNIQUE =>
      advance
      let _ ← eatKeyword .KEY
      return some .unique
  | .CHECK =>
      advance
      let _ ← group
      return none
  | .GENERATED =>
      advance
      expectKeyword .ALWAYS
      expectKeyword .AS
      return some (← generatedColumn)
  | .AS =>
      advance
      return some (← generatedColumn)
  | .REFERENCES => fail (← current).span .inlineReferences
  | _ => unexpected "column option"

/-- An option that begins with a word and has no counterpart in the model. -/
def droppedOption (word : String) : Parser Unit := do
  match upperCase word with
  | "VISIBLE" | "INVISIBLE" | "BINARY" => advance
  | "SRID" =>
      advance
      let _ ← number
  | "COLUMN_FORMAT" | "STORAGE" =>
      advance
      let _ ← name
  | _ => unexpected "column option"

def columnOption : Parser (Option ColumnOption) := do
  match (← current).kind with
  | .keyword keyword => keywordOption keyword
  | .identifier word =>
      droppedOption word
      return none
  | _ => unexpected "column option"

def endsOptions : TokenKind → Bool
  | .comma | .rightParen | .semicolon | .endOfInput => true
  | _ => false

def columnOptions : Parser (List ColumnOption) := do
  let options ← repeatWhile do
    if endsOptions (← current).kind then
      return (none, false)
    else
      return (← columnOption, true)
  return options.filterMap id

def columnDef : Parser ColumnDef := do
  let start := (← current).span.start
  let name ← name
  let dataType ← dataType
  let options ← columnOptions
  return { name, dataType, options, span := ⟨start, (← get).lastStop⟩ }

end SchemaDelta.Sql.Parser
