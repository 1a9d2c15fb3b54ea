import SchemaDelta.Build.Column
import SchemaDelta.Proofs.Parsing.Group
import SchemaDelta.Proofs.Rendering.Pieces
import SchemaDelta.Proofs.Schema.Default

/-!
# Default values are read back

A default value is readable when what the dialect writes for it is legible and read
as a literal that stands for it.
-/

namespace SchemaDelta.Sql.Parser

def afterOption (kind : TokenKind) : Prop :=
  (∃ keyword, kind = .keyword keyword) ∨ kind = .comma ∨ kind = .rightParen

/-! ## Words -/

theorem parse_wordLiteral_alone {piece : Piece} (input : Input) (offset : Nat)
    (hstands : StandsAt input.source offset [piece])
    (hstring : ∀ value, piece.text.head? = some '_' → input.current.kind ≠ .string value)
    (hgroup : input.current.kind ≠ .leftParen) :
    wordLiteral.parse { input with tokens := tokensAt offset [piece] ++ input.tokens }
      = (.ok (.expression (String.ofList piece.text)),
          { input with lastStop := offset + Text.byteLength piece.spelling }) := by
  have htext := hstands.text
  have hgroup : (input.current.kind == .leftParen) = false := by simpa using hgroup
  simp only [groupText, spelling_cons, spelling_nil, List.append_nil] at htext
  simp only [wordLiteral, parse_bind, parse_current, parse_advance, tokensAt_cons, tokensAt_nil,
    List.cons_append, List.nil_append, Input.current_cons, Input.advance_cons]
  split
  next value hhead hvalue =>
    exact absurd hvalue (hstring value (by simpa [Piece.token] using hhead))
  next =>
    simp only [parse_bind, parse_atKind, Input.current_lastStop, hgroup, Bool.false_eq_true,
      if_false, parse_get, parse_pure, Piece.token, htext]

theorem parse_wordLiteral_group {word piece : Piece} {pieces : List Piece}
    (hkind : piece.kind = .leftParen) (hcloses : Closes 0 pieces) (input : Input) (offset : Nat)
    (hstands : StandsAt input.source offset (word :: piece :: pieces)) :
    wordLiteral.parse
        { input with tokens := tokensAt offset (word :: piece :: pieces) ++ input.tokens }
      = (.ok (.expression (String.ofList (groupText (word :: piece :: pieces)))),
          { input with
            lastStop := offset + Text.byteLength (spelling (word :: piece :: pieces)) }) := by
  have htext := hstands.text
  have hright : StandsAt input.source (offset + Text.byteLength word.spelling)
      (piece :: pieces) := by
    have hboth : StandsAt input.source offset ([word] ++ piece :: pieces) := hstands
    simpa using hboth.right
  have hgroup := parse_group hkind hcloses
    { input with lastStop := (word.token offset).span.stop } _ hright
  rw [tokensAt_cons, List.cons_append]
  simp only [wordLiteral, parse_bind, parse_current, parse_advance, Input.current_cons,
    Input.advance_cons]
  split
  next value _ hvalue => simp [hkind] at hvalue
  next =>
    have hat : ((Input.current { input with
        tokens := tokensAt (offset + Text.byteLength word.spelling) (piece :: pieces)
          ++ input.tokens
        lastStop := (word.token offset).span.stop }).kind == .leftParen) = true := by
      simp [hkind]
    simp only [parse_bind, parse_atKind, hat, if_true, hgroup, parse_get, parse_pure]
    simp only [spelling_cons, Text.byteLength_append, Nat.add_assoc, Piece.token] at htext ⊢
    rw [htext]

theorem accepts_wordLiteral (piece : Piece) :
    Accepts wordLiteral [piece] (.expression (String.ofList piece.text)) afterOption :=
  accepts_of_parse fun input offset hstands hfollow => by
    refine ⟨_, parse_wordLiteral_alone input offset hstands (fun value _ => ?_) ?_⟩
    · rcases hfollow with ⟨keyword, h⟩ | h | h <;> simp [h]
    · rcases hfollow with ⟨keyword, h⟩ | h | h <;> simp [h]

theorem accepts_wordLiteral_group {word piece : Piece} {pieces : List Piece}
    (hkind : piece.kind = .leftParen) (hcloses : Closes 0 pieces) :
    Accepts wordLiteral (word :: piece :: pieces)
      (.expression (String.ofList (groupText (word :: piece :: pieces)))) anything :=
  accepts_of_parse fun input offset hstands _ =>
    ⟨_, parse_wordLiteral_group hkind hcloses input offset hstands⟩

/-- A word that is not `NULL` begins an expression. -/
theorem reads_literal_word {word : Piece} {pieces : List Piece} {Q : Literal → Prop}
    {follow : TokenKind → Prop} (hword : isWordKind word.kind = true)
    (hnull : word.kind ≠ .keyword .NULL) (h : Reads wordLiteral (word :: pieces) Q follow) :
    Reads literal (word :: pieces) Q follow := by
  refine reads_current_bind fun offset => ?_
  rw [Piece.kind_token]
  cases hkind : word.kind with
  | identifier => exact h
  | keyword keyword =>
      cases keyword
      case NULL => exact absurd hkind hnull
      all_goals exact h
  | _ => simp [isWordKind, hkind] at hword

theorem accepts_literal_word {piece : Piece} (hword : isWordKind piece.kind = true)
    (hnull : piece.kind ≠ .keyword .NULL) :
    Accepts literal [piece] (.expression (String.ofList piece.text)) afterOption :=
  reads_literal_word hword hnull (accepts_wordLiteral piece)

theorem accepts_literal_call {word piece : Piece} {pieces : List Piece}
    (hword : isWordKind word.kind = true) (hnull : word.kind ≠ .keyword .NULL)
    (hkind : piece.kind = .leftParen) (hcloses : Closes 0 pieces) :
    Accepts literal (word :: piece :: pieces)
      (.expression (String.ofList (groupText (word :: piece :: pieces)))) anything :=
  reads_literal_word hword hnull (accepts_wordLiteral_group hkind hcloses)

/-! ## Other literals -/

section

variable {piece : Piece} {text : String}

theorem accepts_literal_string (h : piece.kind = .string text) :
    Accepts literal [piece] (.string text) anything := by
  refine reads_current_bind fun offset => ?_
  simp only [Piece.kind_token, h]
  exact (accepts_advance piece).cons (reads_pure rfl)

theorem accepts_literal_number (h : piece.kind = .number text) :
    Accepts literal [piece] (.number text) anything := by
  refine reads_current_bind fun offset => ?_
  simp only [Piece.kind_token, h]
  exact (accepts_advance piece).cons (reads_pure rfl)

theorem accepts_literal_binary (h : piece.kind = .binary text) :
    Accepts literal [piece] (.expression text) anything := by
  refine reads_current_bind fun offset => ?_
  simp only [Piece.kind_token, h]
  exact (accepts_advance piece).cons (reads_pure rfl)

theorem accepts_literal_negative {sign : Piece} (hsign : sign.kind = .symbol '-')
    (h : piece.kind = .number text) :
    Accepts literal [sign, piece] (.number ("-" ++ text)) anything := by
  have hnumber : Accepts (signedNumber '-') [sign, piece] (.number ("-" ++ text)) anything := by
    refine (accepts_advance sign).cons (reads_current_bind fun offset => ?_)
    simp only [Piece.kind_token, h]
    exact (accepts_advance piece).cons (reads_pure rfl)
  refine reads_current_bind fun offset => ?_
  simp only [Piece.kind_token, hsign, true_or, if_true]
  exact hnumber

theorem accepts_literal_group {pieces : List Piece} (hkind : piece.kind = .leftParen)
    (hcloses : Closes 0 pieces) :
    Accepts literal (piece :: pieces)
      (.expression (String.ofList (groupText (piece :: pieces)))) anything := by
  refine reads_current_bind fun offset => ?_
  simp only [Piece.kind_token, hkind]
  exact (accepts_group hkind hcloses).map Literal.expression

end

end SchemaDelta.Sql.Parser
