import SchemaDelta.Proofs.Lexing.Gap

/-!
# Pieces of a source

A piece is a token with the gap in front of it.  Pieces are legible when the
lexer takes each of them for what it is, whatever delimited text follows the last
one; what the lexer finds in a source is made of legible pieces.
-/

namespace SchemaDelta.Sql

structure Piece where
  gap : List Char
  kind : TokenKind
  text : List Char

namespace Piece

def spelling (piece : Piece) : List Char :=
  piece.gap ++ piece.text

/-- The token of a piece that begins at the offset. -/
def token (piece : Piece) (offset : Nat) : Token :=
  ⟨piece.kind, ⟨offset + Text.byteLength piece.gap, offset + Text.byteLength piece.spelling⟩,
    String.ofList piece.text⟩

@[simp] theorem kind_token (piece : Piece) (offset : Nat) :
    (piece.token offset).kind = piece.kind := rfl

@[simp] theorem text_token (piece : Piece) (offset : Nat) :
    (piece.token offset).text = String.ofList piece.text := rfl

/-- The lexer takes the piece for a token when `rest` follows. -/
def ReadBefore (piece : Piece) (rest : List Char) : Prop :=
  ∀ offset, Cursor.next ⟨offset, piece.spelling ++ rest⟩
    = (.ok (piece.token offset), ⟨offset + Text.byteLength piece.spelling, rest⟩)

end Piece

/-- The text is one token. -/
def Whole (kind : TokenKind) (text : List Char) : Prop :=
  scanToken text = .token kind text []

def spelling (pieces : List Piece) : List Char :=
  pieces.flatMap Piece.spelling

@[simp] theorem spelling_nil : spelling [] = [] := rfl

@[simp] theorem spelling_cons (piece : Piece) (pieces : List Piece) :
    spelling (piece :: pieces) = piece.spelling ++ spelling pieces := rfl

@[simp] theorem spelling_append (ps qs : List Piece) :
    spelling (ps ++ qs) = spelling ps ++ spelling qs :=
  List.flatMap_append

def tokensAt (offset : Nat) : List Piece → List Token
  | [] => []
  | piece :: pieces =>
      piece.token offset :: tokensAt (offset + Text.byteLength piece.spelling) pieces

@[simp] theorem tokensAt_nil (offset : Nat) : tokensAt offset [] = [] := rfl

@[simp] theorem tokensAt_cons (offset : Nat) (piece : Piece) (pieces : List Piece) :
    tokensAt offset (piece :: pieces)
      = piece.token offset :: tokensAt (offset + Text.byteLength piece.spelling) pieces := rfl

theorem tokensAt_append (offset : Nat) (ps qs : List Piece) :
    tokensAt offset (ps ++ qs)
      = tokensAt offset ps ++ tokensAt (offset + Text.byteLength (spelling ps)) qs := by
  induction ps generalizing offset with
  | nil => simp
  | cons piece ps ih => simp [ih, Nat.add_assoc]

/-- Each piece is read, none ends a statement, and the last one may be followed by
any delimited text. -/
def Legible : List Piece → Prop
  | [] => True
  | piece :: pieces =>
      (piece.kind ≠ .semicolon ∧ piece.kind ≠ .endOfInput)
        ∧ (∀ b, Resumes (spelling pieces) b → piece.ReadBefore b)
        ∧ Legible pieces

/-! ## What the lexer finds -/

/-- Every token comes from a piece, which is read wherever the text goes on alike. -/
theorem Cursor.next_continues {cursor after : Cursor} {token : Token}
    (h : cursor.next = (.ok token, after)) (hend : token.kind ≠ .endOfInput) :
    ∃ piece : Piece, cursor.rest = piece.spelling ++ after.rest
      ∧ token = piece.token cursor.offset
      ∧ after.offset = cursor.offset + Text.byteLength piece.spelling
      ∧ Whole piece.kind piece.text
      ∧ ∀ b, Continues after.rest b → piece.ReadBefore b := by
  unfold next at h
  split at h
  next start hgap =>
    obtain ⟨gap, hrest, hoffset, hskip⟩ := skipGap_again hgap
    have hcomment := scanComment_of_skipGap hgap
    unfold read at h
    split at h
    next kind text rest hscan =>
      simp only [Prod.mk.injEq, Except.ok.injEq] at h
      obtain ⟨rfl, rfl⟩ := h
      obtain ⟨happend, hne⟩ := append_of_scanToken hscan
      rw [← happend] at hscan
      refine ⟨⟨gap, kind, text⟩, ?_, ?_, ?_, ?_, ?_⟩
      · simp [Piece.spelling, skip, hrest, ← happend]
      · simp [Piece.token, Piece.spelling, hoffset, Nat.add_assoc]
      · simp [Piece.spelling, skip, hoffset, Nat.add_assoc]
      · have hwhole := scanToken_resumes hscan (.stop rest delimited_nil)
        simpa [Whole] using hwhole
      · intro b hab offset
        have hstart : scanComment (text ++ b) = .absent
            ∧ (text ++ b).head? = start.rest.head? := by
          rw [← happend] at hcomment ⊢
          cases text with
          | nil => exact absurd rfl hne
          | cons c text => exact ⟨scanComment_continues hcomment (hab.append text), rfl⟩
        simp only [Piece.spelling, List.append_assoc, next, hskip offset _ hstart.1 hstart.2, read,
          scanToken_continues hscan hab]
        simp [Piece.token, Piece.spelling, skip, Nat.add_assoc]
    next =>
      simp only [Prod.mk.injEq, Except.ok.injEq] at h
      exact absurd (congrArg Token.kind h.1).symm hend
    all_goals simp at h
  next => simp at h

theorem Cursor.next_resumes {cursor after : Cursor} {token : Token}
    (h : cursor.next = (.ok token, after)) (hend : token.kind ≠ .endOfInput) :
    ∃ piece : Piece, cursor.rest = piece.spelling ++ after.rest
      ∧ token = piece.token cursor.offset
      ∧ after.offset = cursor.offset + Text.byteLength piece.spelling
      ∧ Whole piece.kind piece.text
      ∧ ∀ b, Resumes after.rest b → piece.ReadBefore b := by
  obtain ⟨piece, hrest, htoken, hoffset, hwhole, hread⟩ := next_continues h hend
  exact ⟨piece, hrest, htoken, hoffset, hwhole, fun b hb => hread b hb.continues⟩

theorem Cursor.lexemes_of_isEnd {cursor : Cursor} (h : cursor.next.1.isEnd = true) :
    cursor.lexemes = [cursor.next.1] := by
  rw [lexemes]
  simp [h]

theorem Cursor.lexemes_of_not_isEnd {cursor : Cursor} (h : cursor.next.1.isEnd = false) :
    cursor.lexemes = cursor.next.1 :: cursor.next.2.lexemes := by
  rw [lexemes]
  simp [h]

theorem Resumes.append_right {a b : List Char} (h : Resumes a b) (back : List Char) :
    Resumes (a ++ back) b := by
  induction h with
  | stop a h => exact .stop _ h
  | step c _ ih => exact ih.step c

theorem Legible.of_append_left {ps qs : List Piece} (h : Legible (ps ++ qs)) : Legible ps := by
  induction ps with
  | nil => trivial
  | cons piece ps ih =>
      simp only [List.cons_append, Legible, spelling_append] at h
      obtain ⟨hkind, hread, hrest⟩ := h
      exact ⟨hkind, fun b hb => hread b (hb.append_right _), ih hrest⟩

theorem Legible.of_append_right {ps qs : List Piece} (h : Legible (ps ++ qs)) : Legible qs := by
  induction ps with
  | nil => exact h
  | cons piece ps ih => exact ih h.2.2

end SchemaDelta.Sql
