import SchemaDelta.Proofs.Parsing.Script

/-!
# Tokens of scripts

A legible text is read as the same tokens wherever it stands in front of a semicolon.
So the tokens of legible statements, each with a semicolon behind it, are those of the
script, and fall into the statements at the semicolons.
-/

namespace SchemaDelta.Sql

/-- The lexer meets no error in the source, and finds tokens of these kinds up to its end. -/
def Lexes (source : List Char) (kinds : List TokenKind) : Prop :=
  (lexemes source).map (·.map Token.kind) = (kinds ++ [TokenKind.endOfInput]).map .ok

/-- Behind any blanks the text is spelled by legible pieces of these kinds. -/
def LegibleText (text : List Char) (kinds : List TokenKind) : Prop :=
  ∀ gap : List Char, (∀ c ∈ gap, Text.isBlank c = true) →
    ∃ pieces, spelling pieces = gap ++ text ∧ Legible pieces ∧ pieces.map Piece.kind = kinds

/-- The statements, each with a semicolon and a line break. -/
def terminated (statements : List (List Char)) : List Char :=
  statements.flatMap (· ++ [';', '\n'])

variable {text : List Char} {kinds : List TokenKind} {pieces : List Piece}

theorem map_kind_tokensAt (offset : Nat) (pieces : List Piece) :
    (tokensAt offset pieces).map Token.kind = pieces.map Piece.kind := by
  induction pieces generalizing offset with
  | nil => rfl
  | cons piece pieces ih => simp [ih]

theorem Legible.semicolon_notMem (h : Legible pieces) :
    TokenKind.semicolon ∉ pieces.map Piece.kind := by
  induction pieces with
  | nil => simp
  | cons piece pieces ih =>
      have hfirst : TokenKind.semicolon ≠ piece.kind := h.1.1.symm
      have hrest := ih h.2.2
      simp only [List.map_cons, List.mem_cons, not_or]
      exact ⟨hfirst, hrest⟩

theorem LegibleText.semicolon_notMem (h : LegibleText text kinds) :
    TokenKind.semicolon ∉ kinds := by
  obtain ⟨pieces, -, hlegible, rfl⟩ := h [] (by simp)
  exact hlegible.semicolon_notMem

/-- In front of a delimiter the tokens of a legible text come first. -/
theorem Cursor.map_kind_lexemes (h : Legible pieces) {rest : List Char} (hrest : Delimited rest)
    (offset : Nat) :
    (lexemes ⟨offset, spelling pieces ++ rest⟩).map (·.map Token.kind)
      = (pieces.map Piece.kind).map .ok
        ++ (lexemes ⟨offset + Text.byteLength (spelling pieces), rest⟩).map
          (·.map Token.kind) := by
  have htokens : ((tokensAt offset pieces).map Except.ok : List Lexeme).map (·.map Token.kind)
      = (pieces.map Piece.kind).map .ok := by
    rw [← map_kind_tokensAt offset pieces, List.map_map, List.map_map]
    rfl
  rw [lexemes_spelling h hrest, List.map_append, htokens]

theorem LegibleText.lexes (h : LegibleText text kinds) : Lexes text kinds := by
  obtain ⟨pieces, hspelling, hlegible, rfl⟩ := h [] (by simp)
  have hnone : ∀ c ∈ ([] : List Char), Text.isBlank c = true := by simp
  obtain ⟨stop, hstop, hkind⟩ :=
    Cursor.lexemes_blank (0 + Text.byteLength (spelling pieces)) hnone
  have hmap := Cursor.map_kind_lexemes hlegible delimited_nil 0
  rw [List.append_nil, hspelling, List.nil_append] at hmap
  have hend : (Cursor.lexemes ⟨0 + Text.byteLength text, []⟩).map (·.map Token.kind)
      = [.ok .endOfInput] := by
    rw [hspelling, List.nil_append] at hstop
    rw [hstop, List.map_singleton, Except.map, hkind]
  rw [Lexes, List.map_append, List.map_singleton, ← hend]
  exact hmap

/-- The tokens of a script are those of its statements, with the semicolons. -/
theorem Cursor.map_kind_lexemes_terminated {statements : List (List Char)}
    {parts : List (List TokenKind)} (h : List.Forall₂ LegibleText statements parts)
    {gap : List Char} (hgap : ∀ c ∈ gap, Text.isBlank c = true) (offset : Nat) :
    (lexemes ⟨offset, gap ++ terminated statements⟩).map (·.map Token.kind)
      = (parts.flatMap (· ++ [TokenKind.semicolon]) ++ [TokenKind.endOfInput]).map .ok := by
  induction h generalizing gap offset with
  | nil =>
      obtain ⟨stop, hstop, hkind⟩ := lexemes_blank offset hgap
      simp [terminated, hstop, Except.map, hkind]
  | @cons statement part statements parts hfirst _ ih =>
      obtain ⟨pieces, hspelling, hlegible, rfl⟩ := hfirst gap hgap
      have htext : gap ++ terminated (statement :: statements)
          = spelling pieces ++ ';' :: (['\n'] ++ terminated statements) := by
        simp [terminated, hspelling]
      have hdelimited : Delimited (';' :: (['\n'] ++ terminated statements)) := by
        simp [delimiters]
      have hnewline : ∀ c ∈ ['\n'], Text.isBlank c = true :=
        List.forall_mem_singleton.mpr (by decide)
      have hrest := ih hnewline (offset + Text.byteLength (spelling pieces)
        + Text.byteLength [';'])
      rw [htext, map_kind_lexemes hlegible hdelimited, lexemes_semicolon, List.map_cons, hrest]
      simp [Except.map, Piece.token]

theorem lexes_terminated {statements : List (List Char)} {parts : List (List TokenKind)}
    (h : List.Forall₂ LegibleText statements parts) :
    Lexes (terminated statements) (parts.flatMap (· ++ [TokenKind.semicolon])) := by
  have hnone : ∀ c ∈ ([] : List Char), Text.isBlank c = true := by simp
  exact Cursor.map_kind_lexemes_terminated h hnone 0

/-- Lists with a separator behind each of them are what splitting gives, in front of an
empty rest. -/
theorem splitOn_flatMap_append {α : Type} [BEq α] [LawfulBEq α] {separator : α}
    {parts : List (List α)} (h : ∀ part ∈ parts, separator ∉ part) :
    (parts.flatMap (· ++ [separator])).splitOn separator = parts ++ [[]] := by
  induction parts with
  | nil => rfl
  | cons part parts ih =>
      have hpart : ∀ item ∈ part, (item == separator) = false := by
        intro item hitem
        apply beq_false_of_ne
        rintro rfl
        exact h part (by simp) hitem
      have hrest := ih fun other hother => h other (by simp [hother])
      have hfirst := List.splitOnP_append_cons_of_forall_mem hpart separator BEq.rfl
        (parts.flatMap (· ++ [separator]))
      rw [List.splitOn] at hrest ⊢
      rw [List.flatMap_cons, List.append_assoc, List.singleton_append, hfirst, hrest]
      rfl

end SchemaDelta.Sql
