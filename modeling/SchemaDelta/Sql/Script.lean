import SchemaDelta.Sql.Lexer
import SchemaDelta.Sql.Parser.Table

/-!
# Scripts

A reader goes through a script with one lexeme at hand.  A lexeme that is an
error stands as the end of the input there, and the first such error of a
statement is what the statement gives.  Behind a statement that cannot be read,
the reader goes on behind the next semicolon.
-/

namespace SchemaDelta.Sql

/-- What makes a statement unreadable. -/
inductive StatementError
  | lexical (error : LexError)
  | parse (error : ParseError)
  deriving Repr, DecidableEq

def StatementError.message : StatementError → String
  | lexical error => "lex error: " ++ error.message
  | parse error => "parse error: " ++ error.message

/-- What stands in for a token that cannot be read. -/
def LexError.placeholder (error : LexError) : Token :=
  ⟨.endOfInput, .point error.offset, ""⟩

namespace Lexeme

def error? : Lexeme → Option LexError
  | .ok _ => none
  | .error error => some error

def token : Lexeme → Token
  | .ok token => token
  | .error error => error.placeholder

def isSemicolon : Lexeme → Bool
  | .ok token => token.kind = .semicolon
  | .error _ => false

end Lexeme

/-- Whether no parser reads past the token. -/
def Segment.isTerminator (token : Token) : Bool :=
  token.kind = .semicolon || token.kind = .endOfInput

structure Reader where
  /-- The lexeme at hand and those behind it. -/
  lexemes : List Lexeme
  /-- The first lexical error of the statement. -/
  lexError : Option LexError

namespace Reader

def current (reader : Reader) : Token :=
  match reader.lexemes with
  | lexeme :: _ => lexeme.token
  | [] => ⟨.endOfInput, .point 0, ""⟩

/-- Goes on to the next lexeme, and stays at the last one. -/
def advance (reader : Reader) : Reader :=
  match reader.lexemes with
  | _ :: lexeme :: lexemes => ⟨lexeme :: lexemes, reader.lexError.or lexeme.error?⟩
  | _ => reader

def advanceBy : Nat → Reader → Reader
  | 0, reader => reader
  | n + 1, reader => reader.advance.advanceBy n

def start (source : List Char) : Reader :=
  advance ⟨.ok ⟨.endOfInput, .point 0, ""⟩ :: Sql.lexemes source, none⟩

/-- The tokens that a parser can come to, and the one that it cannot go past. -/
def ahead : List Lexeme → List Token × Token
  | [] => ([], ⟨.endOfInput, .point 0, ""⟩)
  | .error error :: _ => ([], error.placeholder)
  | .ok token :: lexemes =>
      if Segment.isTerminator token then
        ([], token)
      else
        let (tokens, stop) := ahead lexemes
        (token :: tokens, stop)

/-- What a parser gives as the statement with a number that starts at `start`.  A
lexical error that the reader came to wins. -/
def outcome {α : Type} (source : List Char) (index start : Nat) (lexError : Option LexError)
    (result : Except ParseError α) : Except StatementError α :=
  match lexError, result with
  | some error, _ => .error (.lexical error)
  | none, .error error => .error (.parse (error.inStatement index source start))
  | none, .ok value => .ok value

/-- Runs a parser, and goes on as far as it reads. -/
def run {α : Type} (source : List Char) (parser : Parser α) (index start : Nat)
    (reader : Reader) : Except StatementError α × Reader :=
  let (tokens, stop) := ahead reader.lexemes
  let (result, left) := parser.run { source, tokens, stop, lastStop := 0 }
  let after := reader.advanceBy (tokens.length - left.tokens.length)
  (outcome source index start after.lexError result, after)

/-- What stands behind the next semicolon, or the end of the input. -/
def behind : List Lexeme → List Lexeme
  | [] => []
  | .error _ :: lexemes => behind lexemes
  | .ok token :: lexemes =>
      if token.kind = .semicolon then lexemes
      else if token.kind = .endOfInput then .ok token :: lexemes
      else behind lexemes

/-- Passes over the rest of a statement with its semicolon, and forgets all
lexical errors up to the new place. -/
def recover (reader : Reader) : Reader :=
  ⟨behind reader.lexemes, none⟩

def skipSemicolons (reader : Reader) : Reader :=
  reader.advanceBy (reader.lexemes.takeWhile Lexeme.isSemicolon).length

/-- The statement at a reader, or the error in its place, and where the reader
goes on; nothing at the end of the script.  When a database is given, tables that
belong to another one are passed over. -/
def statement? (source : List Char) (database : Option String) (index : Nat)
    (reader : Reader) : Option (Except StatementError Statement × Reader) :=
  if reader.current.kind = .endOfInput ∧ reader.lexError = none then
    none
  else
    match reader.run source (Parser.statement database) index reader.current.span.start with
    | (.ok statement, after) =>
        some (.ok statement, if after.current.kind = .semicolon then after.advance else after)
    | (.error error, after) => some (.error error, after.recover)

theorem length_advance_le (reader : Reader) :
    reader.advance.lexemes.length ≤ reader.lexemes.length := by
  unfold advance
  split
  next heq => simp [heq]
  next => exact Nat.le_refl _

theorem length_advanceBy_le (n : Nat) (reader : Reader) :
    (reader.advanceBy n).lexemes.length ≤ reader.lexemes.length := by
  induction n generalizing reader with
  | zero => exact Nat.le_refl _
  | succ n ih => exact Nat.le_trans (ih reader.advance) reader.length_advance_le

/-- Reads statements, of which the first one has the number `index`, as long as
they take the reader on. -/
def statements (source : List Char) (database : Option String) (index : Nat)
    (reader : Reader) : List (Except StatementError Statement) :=
  let first := reader.skipSemicolons
  match first.statement? source database index with
  | none => []
  | some (item, after) =>
      if after.lexemes.length < first.lexemes.length then
        item :: statements source database (index + 1) after
      else
        [item]
termination_by reader.lexemes.length
decreasing_by
  have := reader.length_advanceBy_le (reader.lexemes.takeWhile Lexeme.isSemicolon).length
  simp only [first, skipSemicolons] at *
  omega

end Reader

/-- The statements of a script and the errors in place of unreadable ones. -/
def Script.statements (source : String) (database : Option String) :
    List (Except StatementError Statement) :=
  let chars := source.toList
  (Reader.start chars).statements chars database 0

theorem toList_append_of_eq {first second : String} {a b : List Char} (ha : first.toList = a)
    (hb : second.toList = b) : (first ++ second).toList = a ++ b := by
  rw [String.toList_append, ha, hb]

/-- The characters of a literal can be read off it, by `String.toList_ofList`, where an
evaluation would decode its bytes. -/
theorem Script.statements_of_toList {source : String} {chars : List Char}
    (h : source.toList = chars) (database : Option String) :
    Script.statements source database = (Reader.start chars).statements chars database 0 := by
  rw [Script.statements, h]

namespace Parser

/-- A data type and column options, and nothing else. -/
def columnType : Parser (DataType × List ColumnOption) := do
  let dataType ← dataType
  let options ← columnOptions
  unless ← atKind .endOfInput do
    unexpected "end of column type"
  return (dataType, options)

end Parser

/-- Reads the type of a column with its options, as a catalog prints it.  Errors
quote the text from its very start. -/
def columnType (text : String) : Except StatementError (DataType × List ColumnOption) :=
  let source := text.toList
  ((Reader.start source).run source Parser.columnType 0 0).1

theorem columnType_of_toList {text : String} {chars : List Char} (h : text.toList = chars) :
    columnType text = ((Reader.start chars).run chars Parser.columnType 0 0).1 := by
  rw [columnType, h]

end SchemaDelta.Sql
