import SchemaDelta.Sql.Comment
import SchemaDelta.Sql.Scan
import SchemaDelta.Text.Blank

/-!
# Lexer

A cursor is a place in a source: its offset and the text from there on.
`Cursor.next` skips the gap of blanks and comments and reads one token or one
lexical error; `Cursor.lexemes` reads everything through the end of the input,
errors included.
-/

namespace SchemaDelta.Sql

inductive LexError
  /-- A string or binary literal is never closed. -/
  | unterminatedString (offset : Nat)
  | unterminatedIdentifier (offset : Nat)
  | unterminatedComment (offset : Nat)
  /-- A character that no token starts with. -/
  | invalidCharacter (char : Char) (offset : Nat)
  deriving Repr, DecidableEq

namespace LexError

def offset : LexError → Nat
  | unterminatedString offset => offset
  | unterminatedIdentifier offset => offset
  | unterminatedComment offset => offset
  | invalidCharacter _ offset => offset

def message : LexError → String
  | unterminatedString offset =>
      "unterminated string literal starting at byte " ++ toString offset
  | unterminatedIdentifier offset =>
      "unterminated quoted identifier starting at byte " ++ toString offset
  | unterminatedComment offset =>
      "unterminated block comment starting at byte " ++ toString offset
  | invalidCharacter char offset =>
      "invalid character " ++ Text.quotedChar char ++ " at byte " ++ toString offset

end LexError

/-- A token, or the error met in its place. -/
abbrev Lexeme := Except LexError Token

structure Cursor where
  offset : Nat
  rest : List Char
  deriving Repr, DecidableEq

namespace Cursor

def atStart (source : List Char) : Cursor :=
  ⟨0, source⟩

/-- The place at byte `offset`, or the end when that is no boundary. -/
def startingAt (source : List Char) (offset : Nat) : Cursor :=
  match Text.dropBytes? offset source with
  | some rest => ⟨offset, rest⟩
  | none => ⟨Text.byteLength source, []⟩

/-- Moves behind `text`, which `rest` follows. -/
def skip (cursor : Cursor) (text rest : List Char) : Cursor :=
  ⟨cursor.offset + Text.byteLength text, rest⟩

def toEnd (cursor : Cursor) : Cursor :=
  cursor.skip cursor.rest []

end Cursor

/-! ## Gaps -/

namespace Cursor

def skipBlanks (cursor : Cursor) : Cursor :=
  cursor.skip (cursor.rest.takeWhile Text.isBlank) (cursor.rest.dropWhile Text.isBlank)

theorem length_skipBlanks_le (cursor : Cursor) :
    cursor.skipBlanks.rest.length ≤ cursor.rest.length :=
  (List.dropWhile_sublist _).length_le

/-- Moves to the next token, or meets a comment that is never closed. -/
def skipGap (cursor : Cursor) : Except LexError Cursor :=
  match _h : scanComment cursor.skipBlanks.rest with
  | .absent => .ok cursor.skipBlanks
  | .unclosed => .error (.unterminatedComment cursor.skipBlanks.offset)
  | .closed text rest => skipGap (cursor.skipBlanks.skip text rest)
termination_by cursor.rest.length
decreasing_by
  obtain ⟨happend, hne⟩ := append_of_scanComment _h
  have hlength := congrArg List.length happend
  have hpos := List.length_pos_iff.mpr hne
  have hle := cursor.length_skipBlanks_le
  simp only [List.length_append] at hlength
  simp only [skip]
  omega

end Cursor

/-! ## Reading on -/

namespace Cursor

/-- The lexeme that stands at the cursor, without a gap in between, and the
cursor behind it. -/
def read (cursor : Cursor) : Lexeme × Cursor :=
  match scanToken cursor.rest with
  | .token kind text rest =>
      let span := ⟨cursor.offset, cursor.offset + Text.byteLength text⟩
      (.ok ⟨kind, span, String.ofList text⟩, cursor.skip text rest)
  | .endOfInput => (.ok ⟨.endOfInput, .point cursor.offset, ""⟩, cursor)
  | .unclosedString => (.error (.unterminatedString cursor.offset), cursor.toEnd)
  | .unclosedIdentifier =>
      (.error (.unterminatedIdentifier cursor.offset), cursor.toEnd)
  | .invalid c rest => (.error (.invalidCharacter c cursor.offset), cursor.skip [c] rest)

/-- The next token or lexical error, and the cursor behind it.  Only a single
character is given up for an invalid one; what is never closed takes all of the
source. -/
def next (cursor : Cursor) : Lexeme × Cursor :=
  match cursor.skipGap with
  | .ok start => start.read
  | .error error => (.error error, cursor.toEnd)

end Cursor

def Lexeme.isEnd : Lexeme → Bool
  | .ok token => token.kind = .endOfInput
  | .error _ => false

namespace Cursor

theorem length_rest_of_skipGap {cursor start : Cursor} (h : cursor.skipGap = .ok start) :
    start.rest.length ≤ cursor.rest.length := by
  fun_induction skipGap cursor with
  | case1 cursor =>
      simp only [Except.ok.injEq] at h
      subst h
      exact cursor.length_skipBlanks_le
  | case2 => simp at h
  | case3 cursor text rest hscan ih =>
      have hlength := congrArg List.length (append_of_scanComment hscan).1
      have hle := cursor.length_skipBlanks_le
      have := ih h
      simp only [List.length_append] at hlength
      simp only [skip] at this
      omega

theorem rest_ne_nil_of_skipGap {cursor : Cursor} {error : LexError}
    (h : cursor.skipGap = .error error) : cursor.rest ≠ [] := by
  intro hnil
  have hscan : scanComment cursor.skipBlanks.rest = .absent := by
    simp [skipBlanks, skip, hnil, scanComment]
  fun_induction skipGap cursor with
  | case1 => simp at h
  | case2 cursor hunclosed => simp [hunclosed] at hscan
  | case3 cursor text rest hclosed => simp [hclosed] at hscan

theorem length_rest_read (cursor : Cursor) (h : cursor.read.1.isEnd = false) :
    cursor.read.2.rest.length < cursor.rest.length := by
  unfold read at h ⊢
  split
  next kind text rest hscan =>
    obtain ⟨happend, hne⟩ := append_of_scanToken hscan
    have hlength := congrArg List.length happend
    have hpos := List.length_pos_iff.mpr hne
    simp only [List.length_append] at hlength
    simp only [skip]
    omega
  next hscan => simp [hscan, Lexeme.isEnd] at h
  next hscan =>
    cases hrest : cursor.rest with
    | nil => simp [hrest, scanToken] at hscan
    | cons => simp [toEnd, skip]
  next hscan =>
    cases hrest : cursor.rest with
    | nil => simp [hrest, scanToken] at hscan
    | cons => simp [toEnd, skip]
  next c rest hscan =>
    rw [scanToken_eq_invalid hscan]
    simp [skip]

/-- Every step but the last one moves on. -/
theorem length_rest_next (cursor : Cursor) (h : cursor.next.1.isEnd = false) :
    cursor.next.2.rest.length < cursor.rest.length := by
  unfold next at h ⊢
  split
  next start hgap =>
    simp only [hgap] at h
    have := length_rest_of_skipGap hgap
    have := start.length_rest_read h
    omega
  next error hgap =>
    have := List.length_pos_iff.mpr (rest_ne_nil_of_skipGap hgap)
    simpa [toEnd, skip] using this

/-- All tokens and lexical errors from the cursor on, through the end of the
input. -/
def lexemes (cursor : Cursor) : List Lexeme :=
  if _h : cursor.next.1.isEnd then
    [cursor.next.1]
  else
    cursor.next.1 :: cursor.next.2.lexemes
termination_by cursor.rest.length
decreasing_by exact cursor.length_rest_next (by simpa using _h)

end Cursor

/-- All tokens and lexical errors of a source, through its end. -/
def lexemes (source : List Char) : List Lexeme :=
  (Cursor.atStart source).lexemes

end SchemaDelta.Sql
