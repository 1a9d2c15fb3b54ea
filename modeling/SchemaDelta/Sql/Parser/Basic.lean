import SchemaDelta.Sql.ParseError
import SchemaDelta.Text.Number

/-!
# Parsers over the tokens of one statement

The input of a parser is the part of a statement that is still to be read, and
what ends it.  A parser never reads past the end: there it sees the end as its
current token for ever.  Failing keeps the input, so that the place where a
parser gave up can be told.
-/

namespace SchemaDelta.Sql

structure Input where
  /-- The whole script. -/
  source : List Char
  /-- The tokens of the statement that are still to be read. -/
  tokens : List Token
  /-- What stands behind the last token. -/
  stop : Token
  /-- Where the last token that was read ends. -/
  lastStop : Nat

namespace Input

def current (input : Input) : Token :=
  input.tokens.head?.getD input.stop

def advance (input : Input) : Input :=
  match input.tokens with
  | [] => input
  | token :: tokens => { input with tokens, lastStop := token.span.stop }

end Input

abbrev Parser := ExceptT ParseError (StateM Input)

namespace Parser

variable {α : Type}

def current : Parser Token :=
  return (← get).current

def advance : Parser Unit :=
  modify Input.advance

def fail (span : Span) (problem : ParseProblem) : Parser α :=
  throw (.ofProblem problem span)

/-- Fails at the current token, where `expected` should stand. -/
def unexpected (expected : String) : Parser α := do
  let token ← current
  match token.kind with
  | .endOfInput => fail token.span (.endOfStatement expected)
  | kind => fail token.span (.unexpected expected kind)

/-- Reads the current token if it passes the test. -/
def eat (test : TokenKind → Bool) : Parser Bool := do
  if test (← current).kind then
    advance
    return true
  else
    return false

def atKind (kind : TokenKind) : Parser Bool :=
  return (← current).kind == kind

def eatKind (kind : TokenKind) : Parser Bool :=
  eat (· == kind)

def atKeyword (keyword : Keyword) : Parser Bool :=
  atKind (.keyword keyword)

def eatKeyword (keyword : Keyword) : Parser Bool :=
  eatKind (.keyword keyword)

/-- Whether a token is the given word, which is not a keyword. -/
def isWord (word : String) : TokenKind → Bool
  | .identifier name => sameName name word
  | _ => false

def eatWord (word : String) : Parser Bool :=
  eat (isWord word)

def expectKind (kind : TokenKind) : Parser Unit := do
  unless ← eatKind kind do
    unexpected kind.describe

def expectKeyword (keyword : Keyword) : Parser Unit := do
  unless ← eatKeyword keyword do
    unexpected keyword.spelling

/-- The name that a token can be read as.  Keywords are names as they are
written, unless they open a constraint. -/
def nameOf? (token : Token) : Option String :=
  match token.kind with
  | .identifier name | .quoted name => some name
  | .keyword keyword => if keyword.startsConstraint then none else some token.text
  | _ => none

def name : Parser String := do
  match nameOf? (← current) with
  | some name =>
      advance
      return name
  | none => unexpected "name"

def string : Parser String := do
  match (← current).kind with
  | .string value =>
      advance
      return value
  | _ => unexpected "string literal"

def nameOrString : Parser String := do
  match (← current).kind with
  | .string _ => string
  | _ => name

/-- An unsigned 32-bit integer. -/
def number : Parser Nat := do
  let token ← current
  match token.kind with
  | .number text =>
      match Text.word32? text.toList with
      | some n =>
          advance
          return n
      | none => fail token.span (.invalidNumber text)
  | _ => unexpected "number"

/-- Runs `step` until it answers `false` beside its value, or reads no token. -/
def repeatFrom (step : Parser (α × Bool)) (input : Input) :
    Except ParseError (List α) × Input :=
  match step.run input with
  | (.error error, after) => (.error error, after)
  | (.ok (value, false), after) => (.ok [value], after)
  | (.ok (value, true), after) =>
      if after.tokens.length < input.tokens.length then
        let (values, last) := repeatFrom step after
        (values.map (value :: ·), last)
      else
        (.ok [value], after)
termination_by input.tokens.length

def repeatWhile (step : Parser (α × Bool)) : Parser (List α) :=
  ExceptT.mk fun input => repeatFrom step input

/-- One or more items with commas in between. -/
def commaSeparated (item : Parser α) : Parser (List α) :=
  repeatWhile do
    let value ← item
    return (value, ← eatKind .comma)

/-- Finds the end of a group in which `depth` further groups are open: where it
ends, and the tokens behind it. -/
def closeGroup? : Nat → List Token → Option (Nat × List Token)
  | _, [] => none
  | depth, token :: tokens =>
      match token.kind with
      | .leftParen => closeGroup? (depth + 1) tokens
      | .rightParen =>
          match depth with
          | 0 => some (token.span.stop, tokens)
          | depth + 1 => closeGroup? depth tokens
      | _ => closeGroup? depth tokens

/-- Reads a group in parentheses, whatever it holds, and gives its source text
with the parentheses. -/
def group : Parser String := do
  let start := (← current).span.start
  expectKind .leftParen
  let input ← get
  match closeGroup? 0 input.tokens with
  | some (stop, tokens) =>
      set { input with tokens, lastStop := stop }
      return Span.text ⟨start, stop⟩ input.source
  | none =>
      set { input with tokens := [] }
      unexpected "')'"

def skipRest : Parser Unit :=
  modify fun input =>
    match input.tokens.getLast? with
    | some token => { input with tokens := [], lastStop := token.span.stop }
    | none => input

end Parser

end SchemaDelta.Sql
