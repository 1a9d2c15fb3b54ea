import SchemaDelta.Sql.Keyword
import SchemaDelta.Sql.Span
import SchemaDelta.Text.Quoted

/-!
# Tokens

A token is what the lexer finds at a place of the source: its kind, the span it
occupies and the text it was written with.
-/

namespace SchemaDelta.Sql

inductive TokenKind
  /-- A number, kept as written. -/
  | number (text : String)
  /-- A string literal, decoded. -/
  | string (value : String)
  /-- A hexadecimal or bit literal, kept as written. -/
  | binary (text : String)
  | identifier (name : String)
  /-- An identifier between quotes, decoded. -/
  | quoted (name : String)
  | keyword (word : Keyword)
  | leftParen
  | rightParen
  | comma
  | semicolon
  | dot
  | equals
  /-- Any other operator character. -/
  | symbol (char : Char)
  | endOfInput
  deriving Repr, DecidableEq, Inhabited

/-- The form in which messages show a token. -/
def TokenKind.describe : TokenKind → String
  | .number text => "Number(" ++ Text.quoted text ++ ")"
  | .string value => "String(" ++ Text.quoted value ++ ")"
  | .binary text => "BinaryLiteral(" ++ Text.quoted text ++ ")"
  | .identifier name => "Identifier(" ++ Text.quoted name ++ ")"
  | .quoted name => "QuotedIdentifier(" ++ Text.quoted name ++ ")"
  | .keyword word => "Keyword(" ++ word.label ++ ")"
  | .leftParen => "LeftParen"
  | .rightParen => "RightParen"
  | .comma => "Comma"
  | .semicolon => "Semicolon"
  | .dot => "Dot"
  | .equals => "Eq"
  | .symbol char => "Symbol(" ++ Text.quotedChar char ++ ")"
  | .endOfInput => "Eof"

structure Token where
  kind : TokenKind
  span : Span
  text : String
  deriving Repr, DecidableEq, Inhabited

/-- The name that an identifier stands for. -/
def Token.name? (token : Token) : Option String :=
  match token.kind with
  | .identifier name | .quoted name => some name
  | _ => none

end SchemaDelta.Sql
