import SchemaDelta.Sql.Script

/-!
# Scripts by segments

A segment is what stands between two semicolons of a script.  Read segment by
segment, each one that holds anything gives a statement or an error, and an error
concerns its own segment only, with one exception: a script that fails right
behind the semicolon of a failed statement, with a lexical error, is read no
further.
-/

namespace SchemaDelta.Sql

structure Segment where
  lexemes : List Lexeme
  /-- The semicolon or the end of the input. -/
  terminator : Token

namespace Segment

/-- Puts a lexeme in front of the first segment. -/
def push (lexeme : Lexeme) : List Segment → List Segment
  | [] => []
  | segment :: segments =>
      { segment with lexemes := lexeme :: segment.lexemes } :: segments

def split : List Lexeme → List Segment
  | [] => []
  | .ok token :: lexemes =>
      if isTerminator token then ⟨[], token⟩ :: split lexemes
      else push (.ok token) (split lexemes)
  | .error error :: lexemes => push (.error error) (split lexemes)

/-- The tokens in front of the first lexical error. -/
def tokens (segment : Segment) : List Token :=
  go segment.lexemes
where
  go : List Lexeme → List Token
    | .ok token :: lexemes => token :: go lexemes
    | _ => []

/-- The first lexical error. -/
def lexError? (segment : Segment) : Option LexError :=
  segment.lexemes.findSome? fun
    | .error error => some error
    | .ok _ => none

/-- Whether nothing of the segment can be read. -/
def startsWithError (segment : Segment) : Bool :=
  segment.tokens.isEmpty && segment.lexError?.isSome

/-- The segment for a parser.  It ends in front of a lexical error as if the
script did. -/
def input (source : List Char) (segment : Segment) : Input where
  source := source
  tokens := segment.tokens
  stop :=
    match segment.lexError? with
    | some error => ⟨.endOfInput, .point error.offset, ""⟩
    | none => segment.terminator
  lastStop := 0

/-- Where the first token starts. -/
def start (source : List Char) (segment : Segment) : Nat :=
  (segment.input source).current.span.start

/-- Runs a parser on the segment, as the statement with a number that starts at
`start`.  A lexical error counts when the parser comes to it, and then it wins. -/
def run {α : Type} (source : List Char) (parser : Parser α) (index start : Nat)
    (segment : Segment) : Except StatementError α :=
  let input := segment.input source
  let (result, after) := parser.run input
  match after.tokens, segment.lexError?, result with
  | [], some error, _ => .error (.lexical error)
  | _, _, .error error =>
      .error (.parse (error.inStatement index source start))
  | _, _, .ok value => .ok value

end Segment

namespace Script

def segments (source : List Char) : List Segment :=
  Segment.split (lexemes source)

/-- Reads segments, of which the first one has the number `index` unless it is
empty.  `failed` says whether the segment right in front of them failed. -/
def readFrom (source : List Char) (database : Option String) :
    (index : Nat) → (failed : Bool) → List Segment → List (Except StatementError Statement)
  | _, _, [] => []
  | index, failed, segment :: segments =>
      if segment.lexemes.isEmpty then
        readFrom source database index false segments
      else if failed && segment.startsWithError then
        []
      else
        match segment.run source (Parser.statement database) index (segment.start source) with
        | .ok statement =>
            .ok statement :: readFrom source database (index + 1) false segments
        | .error error =>
            .error error :: readFrom source database (index + 1) true segments

end Script

end SchemaDelta.Sql
