import SchemaDelta.Proofs.Parsing.Accepts

/-!
# Groups in parentheses

A group is read as the text of its pieces.  Whether pieces make up a group depends
on their kinds alone.
-/

namespace SchemaDelta.Text

theorem splitAtByte?_append (front back : List Char) :
    splitAtByte? (byteLength front) (front ++ back) = some (front, back) := by
  induction front with
  | nil => simp [splitAtByte?]
  | cons c front ih =>
      have hpos := c.utf8Size_pos
      obtain ⟨n, hn⟩ : ∃ n, c.utf8Size + byteLength front = n + 1 :=
        ⟨c.utf8Size + byteLength front - 1, by omega⟩
      have hrest : n + 1 - c.utf8Size = byteLength front := by omega
      rw [byteLength_cons, hn, List.cons_append, splitAtByte?, if_pos (by omega), hrest, ih]
      rfl

theorem slice_append (front middle back : List Char) :
    slice (byteLength front) (byteLength front + byteLength middle) (front ++ middle ++ back)
      = middle := by
  rw [List.append_assoc]
  simp [slice, dropBytes?_eq, splitAtByte?_append]

end SchemaDelta.Text

namespace SchemaDelta.Sql

/-- The last piece closes the group in which `depth` further groups are open, and no
piece in front of it does. -/
def Closes : Nat → List Piece → Prop
  | _, [] => False
  | depth, piece :: pieces =>
      match piece.kind with
      | .leftParen => Closes (depth + 1) pieces
      | .rightParen =>
          match depth with
          | 0 => pieces = []
          | depth + 1 => Closes depth pieces
      | _ => Closes depth pieces

section

variable {piece : Piece} {pieces : List Piece} {depth : Nat}

theorem closes_cons : Closes depth (piece :: pieces) ↔
    match piece.kind with
    | .leftParen => Closes (depth + 1) pieces
    | .rightParen =>
        match depth with
        | 0 => pieces = []
        | depth + 1 => Closes depth pieces
    | _ => Closes depth pieces := Iff.rfl

theorem closes_left (h : piece.kind = .leftParen) :
    Closes depth (piece :: pieces) ↔ Closes (depth + 1) pieces := by
  simp only [closes_cons, h]

theorem closes_right_zero (h : piece.kind = .rightParen) :
    Closes 0 (piece :: pieces) ↔ pieces = [] := by
  simp only [closes_cons, h]

theorem closes_right_succ (h : piece.kind = .rightParen) :
    Closes (depth + 1) (piece :: pieces) ↔ Closes depth pieces := by
  simp only [closes_cons, h]

theorem closes_other (hleft : piece.kind ≠ .leftParen) (hright : piece.kind ≠ .rightParen) :
    Closes depth (piece :: pieces) ↔ Closes depth pieces := by
  simp [closes_cons]

end

/-- The text from the first piece to the last one, without the gap in front. -/
def groupText : List Piece → List Char
  | [] => []
  | piece :: pieces => piece.text ++ spelling pieces

theorem StandsAt.text {source : List Char} {offset : Nat} {piece : Piece} {pieces : List Piece}
    (h : StandsAt source offset (piece :: pieces)) :
    Span.text ⟨offset + Text.byteLength piece.gap,
        offset + Text.byteLength (spelling (piece :: pieces))⟩ source
      = String.ofList (groupText (piece :: pieces)) := by
  obtain ⟨front, back, rfl, rfl⟩ := h
  have hslice := Text.slice_append (front ++ piece.gap) (piece.text ++ spelling pieces) back
  simp only [Text.byteLength_append, List.append_assoc, Nat.add_assoc] at hslice
  simp [Span.text, groupText, Piece.spelling, hslice]

theorem Closes.getLast? {depth : Nat} {pieces : List Piece} (h : Closes depth pieces) :
    ∃ last, pieces.getLast? = some last ∧ last.kind = .rightParen := by
  induction pieces generalizing depth with
  | nil => exact absurd h id
  | cons piece pieces ih =>
      have hrest : ∀ {depth}, Closes depth pieces →
          ∃ last, (piece :: pieces).getLast? = some last ∧ last.kind = .rightParen := by
        intro depth hcloses
        obtain ⟨last, hlast, hkind⟩ := ih hcloses
        exact ⟨last, by rw [List.getLast?_cons, hlast]; rfl, hkind⟩
      by_cases hleft : piece.kind = .leftParen
      · exact hrest ((closes_left hleft).mp h)
      · by_cases hright : piece.kind = .rightParen
        · cases depth with
          | zero =>
              obtain rfl := (closes_right_zero hright).mp h
              exact ⟨piece, rfl, hright⟩
          | succ depth => exact hrest ((closes_right_succ hright).mp h)
        · exact hrest ((closes_other hleft hright).mp h)

/-- What closes a group is also the last of it and what stands in front. -/
theorem Closes.getLast?_append {depth : Nat} {pieces : List Piece} (h : Closes depth pieces)
    (front : List Piece) :
    ∃ last, (front ++ pieces).getLast? = some last ∧ last.kind = .rightParen := by
  obtain ⟨last, hlast, hkind⟩ := h.getLast?
  refine ⟨last, ?_, hkind⟩
  rw [List.getLast?_append, hlast]
  rfl

theorem getLast?_groupText {piece last : Piece} {pieces : List Piece}
    (hlast : (piece :: pieces).getLast? = some last) (hne : last.text ≠ []) :
    (groupText (piece :: pieces)).getLast? = last.text.getLast? := by
  obtain ⟨c, hc⟩ : ∃ c, last.text.getLast? = some c := by
    cases h : last.text.getLast? with
    | none => exact absurd (List.getLast?_eq_none_iff.mp h) hne
    | some c => exact ⟨c, rfl⟩
  rcases List.eq_nil_or_concat pieces with rfl | ⟨front, other, rfl⟩
  · simp only [List.getLast?_singleton, Option.some.injEq] at hlast
    simp [groupText, hlast]
  · rw [List.concat_eq_append, ← List.cons_append, List.getLast?_concat,
      Option.some.injEq] at hlast
    simp [groupText, List.getLast?_append, Piece.spelling, hlast, hc]

namespace Parser

section

variable {token : Token} (depth : Nat) (tokens : List Token)

theorem closeGroup?_cons : closeGroup? depth (token :: tokens) =
    match token.kind with
    | .leftParen => closeGroup? (depth + 1) tokens
    | .rightParen =>
        match depth with
        | 0 => some (token.span.stop, tokens)
        | depth + 1 => closeGroup? depth tokens
    | _ => closeGroup? depth tokens := rfl

theorem closeGroup?_left (h : token.kind = .leftParen) :
    closeGroup? depth (token :: tokens) = closeGroup? (depth + 1) tokens := by
  simp only [closeGroup?_cons, h]

theorem closeGroup?_right_zero (h : token.kind = .rightParen) :
    closeGroup? 0 (token :: tokens) = some (token.span.stop, tokens) := by
  simp only [closeGroup?_cons, h]

theorem closeGroup?_right_succ (h : token.kind = .rightParen) :
    closeGroup? (depth + 1) (token :: tokens) = closeGroup? depth tokens := by
  simp only [closeGroup?_cons, h]

theorem closeGroup?_other (hleft : token.kind ≠ .leftParen) (hright : token.kind ≠ .rightParen) :
    closeGroup? depth (token :: tokens) = closeGroup? depth tokens := by
  simp [closeGroup?_cons]

end

theorem closeGroup?_of_closes {depth : Nat} {pieces : List Piece} (h : Closes depth pieces)
    (offset : Nat) (tokens : List Token) :
    closeGroup? depth (tokensAt offset pieces ++ tokens)
      = some (offset + Text.byteLength (spelling pieces), tokens) := by
  induction pieces generalizing depth offset with
  | nil => exact absurd h id
  | cons piece pieces ih =>
      simp only [tokensAt_cons, List.cons_append, spelling_cons, Text.byteLength_append,
        ← Nat.add_assoc]
      by_cases hleft : piece.kind = .leftParen
      · rw [closeGroup?_left _ _ hleft]
        exact ih ((closes_left hleft).mp h) _
      · by_cases hright : piece.kind = .rightParen
        · cases depth with
          | zero =>
              obtain rfl := (closes_right_zero hright).mp h
              rw [closeGroup?_right_zero _ hright]
              simp [Piece.token]
          | succ depth =>
              rw [closeGroup?_right_succ _ _ hright]
              exact ih ((closes_right_succ hright).mp h) _
        · rw [closeGroup?_other _ _ hleft hright]
          exact ih ((closes_other hleft hright).mp h) _

/-- The pieces through the end of a group that was found. -/
theorem exists_of_closeGroup? {depth offset stop : Nat} {pieces : List Piece}
    {tokens : List Token} (h : closeGroup? depth (tokensAt offset pieces) = some (stop, tokens)) :
    ∃ qs rs, pieces = qs ++ rs ∧ Closes depth qs
      ∧ stop = offset + Text.byteLength (spelling qs) ∧ tokens = tokensAt stop rs := by
  induction pieces generalizing depth offset with
  | nil => simp [closeGroup?] at h
  | cons piece pieces ih =>
      rw [tokensAt_cons] at h
      have hrest : ∀ {depth'}, (∀ {qs}, Closes depth' qs → Closes depth (piece :: qs)) →
          closeGroup? depth' (tokensAt (offset + Text.byteLength piece.spelling) pieces)
            = some (stop, tokens) →
          ∃ qs rs, piece :: pieces = qs ++ rs ∧ Closes depth qs
            ∧ stop = offset + Text.byteLength (spelling qs) ∧ tokens = tokensAt stop rs := by
        intro depth' hcons hclose
        obtain ⟨qs, rs, rfl, hcloses, rfl, rfl⟩ := ih hclose
        exact ⟨piece :: qs, rs, rfl, hcons hcloses, by simp [Nat.add_assoc], rfl⟩
      by_cases hleft : piece.kind = .leftParen
      · rw [closeGroup?_left _ _ hleft] at h
        exact hrest (closes_left hleft).mpr h
      · by_cases hright : piece.kind = .rightParen
        · cases depth with
          | zero =>
              rw [closeGroup?_right_zero _ hright, Option.some.injEq, Prod.mk.injEq] at h
              obtain ⟨rfl, rfl⟩ := h
              refine ⟨[piece], pieces, rfl, (closes_right_zero hright).mpr rfl, ?_, rfl⟩
              simp [Piece.token]
          | succ depth =>
              rw [closeGroup?_right_succ _ _ hright] at h
              exact hrest (closes_right_succ hright).mpr h
        · rw [closeGroup?_other _ _ hleft hright] at h
          exact hrest (closes_other hleft hright).mpr h

/-- Pieces of a group are read as their text, and the input stops behind them. -/
theorem parse_group {piece : Piece} {pieces : List Piece} (hkind : piece.kind = .leftParen)
    (hcloses : Closes 0 pieces) (input : Input) (offset : Nat)
    (hstands : StandsAt input.source offset (piece :: pieces)) :
    group.parse { input with tokens := tokensAt offset (piece :: pieces) ++ input.tokens }
      = (.ok (String.ofList (groupText (piece :: pieces))),
          { input with lastStop := offset + Text.byteLength (spelling (piece :: pieces)) }) := by
  have hexpect : (expectKind .leftParen).parse
      { input with tokens := tokensAt offset (piece :: pieces) ++ input.tokens }
        = (.ok (), Input.advance
            { input with tokens := tokensAt offset (piece :: pieces) ++ input.tokens }) := by
    simp [expectKind, parse_bind, eatKind, parse_eat, hkind, parse_pure]
  have hclose := closeGroup?_of_closes hcloses
    (offset + Text.byteLength piece.spelling) input.tokens
  have htext := hstands.text
  rw [group, parse_bind, parse_current]
  dsimp only
  rw [parse_bind, hexpect]
  simp only [tokensAt_cons, List.cons_append, Input.current_cons, Input.advance_cons, parse_bind,
    parse_get, hclose, parse_set, parse_pure, Piece.token]
  simp only [spelling_cons, Text.byteLength_append, Nat.add_assoc] at htext ⊢
  rw [htext]

theorem accepts_group {piece : Piece} {pieces : List Piece} (hkind : piece.kind = .leftParen)
    (hcloses : Closes 0 pieces) :
    Accepts group (piece :: pieces) (String.ofList (groupText (piece :: pieces))) anything :=
  accepts_of_parse fun input offset hstands _ =>
    ⟨_, parse_group hkind hcloses input offset hstands⟩

end Parser

end SchemaDelta.Sql
