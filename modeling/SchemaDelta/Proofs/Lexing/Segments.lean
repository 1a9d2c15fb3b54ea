import SchemaDelta.Proofs.Lexing.Piece
import SchemaDelta.Sql.Segment

/-!
# Segments are made of pieces

The tokens of every segment of a source, up to its first lexical error, are those
of legible pieces that stand in the source one behind the other.
-/

namespace SchemaDelta.Sql

/-- A cursor moves on within its text. -/
theorem Cursor.exists_front_next (cursor : Cursor) :
    ∃ front, cursor.rest = front ++ cursor.next.2.rest
      ∧ cursor.next.2.offset = cursor.offset + Text.byteLength front := by
  unfold next
  split
  next start hgap =>
    obtain ⟨gap, hrest, hoffset, -⟩ := skipGap_again hgap
    unfold read
    split
    next kind text rest hscan =>
      have happend := (append_of_scanToken hscan).1
      exact ⟨gap ++ text, by simp [skip, hrest, happend], by simp [skip, hoffset, Nat.add_assoc]⟩
    next => exact ⟨gap, hrest, hoffset⟩
    next => exact ⟨gap ++ start.rest, by simp [toEnd, skip, hrest],
      by simp [toEnd, skip, hoffset, Nat.add_assoc]⟩
    next => exact ⟨gap ++ start.rest, by simp [toEnd, skip, hrest],
      by simp [toEnd, skip, hoffset, Nat.add_assoc]⟩
    next c rest hscan =>
      have hcs := scanToken_eq_invalid hscan
      exact ⟨gap ++ [c], by simp [skip, hrest, hcs], by simp [skip, hoffset, Nat.add_assoc]⟩
  next => exact ⟨cursor.rest, by simp [toEnd, skip], by simp [toEnd, skip]⟩

namespace Segment

/-- The tokens of the segment are those of pieces at the front of a text. -/
def StandsIn (segment : Segment) (offset : Nat) (text : List Char) : Prop :=
  ∃ pieces back, text = spelling pieces ++ back
    ∧ segment.tokens = tokensAt offset pieces ∧ Legible pieces

theorem standsIn_nil {segment : Segment} (h : segment.tokens = []) (offset : Nat)
    (text : List Char) : segment.StandsIn offset text :=
  ⟨[], text, rfl, h, trivial⟩

theorem tokens_push_ok (token : Token) (segment : Segment) :
    tokens { segment with lexemes := .ok token :: segment.lexemes }
      = token :: segment.tokens := rfl

/-- A piece in front of the text of a segment goes with the segment. -/
theorem StandsIn.push {segment : Segment} {cursor after : Cursor} {token : Token}
    (hnext : cursor.next = (.ok token, after)) (hterminator : isTerminator token = false)
    (h : segment.StandsIn after.offset after.rest) :
    StandsIn { segment with lexemes := .ok token :: segment.lexemes } cursor.offset
      cursor.rest := by
  simp only [isTerminator, Bool.or_eq_false_iff, decide_eq_false_iff_not] at hterminator
  obtain ⟨piece, hrest, rfl, hoffset, -, hread⟩ := Cursor.next_resumes hnext hterminator.2
  obtain ⟨pieces, back, htext, htokens, hlegible⟩ := h
  refine ⟨piece :: pieces, back, ?_, ?_, hterminator, ?_, hlegible⟩
  · rw [hrest, htext, spelling_cons, List.append_assoc]
  · rw [tokens_push_ok, htokens, tokensAt_cons, hoffset]
  · intro b hb
    apply hread
    rw [htext]
    exact hb.append_right back

end Segment

/-- The first segment begins at the cursor, the others somewhere behind it. -/
def Cursor.Covers (cursor : Cursor) (segments : List Segment) : Prop :=
  (∀ segment ∈ segments.head?, segment.StandsIn cursor.offset cursor.rest)
    ∧ ∀ segment ∈ segments, ∃ front back, cursor.rest = front ++ back
        ∧ segment.StandsIn (cursor.offset + Text.byteLength front) back

/-- A segment that begins at the cursor goes in front of those behind it. -/
theorem Cursor.Covers.cons {cursor after : Cursor} {segment : Segment} {segments : List Segment}
    (hfront : ∃ front, cursor.rest = front ++ after.rest
      ∧ after.offset = cursor.offset + Text.byteLength front)
    (hfirst : segment.StandsIn cursor.offset cursor.rest)
    (h : ∀ segment ∈ segments, ∃ front back, after.rest = front ++ back
      ∧ segment.StandsIn (after.offset + Text.byteLength front) back) :
    cursor.Covers (segment :: segments) := by
  refine ⟨by simpa using hfirst, fun other hmem => ?_⟩
  rcases List.mem_cons.mp hmem with rfl | hmem
  · exact ⟨[], cursor.rest, rfl, by simpa using hfirst⟩
  · obtain ⟨front, hrest, hoffset⟩ := hfront
    obtain ⟨front', back, hback, hstands⟩ := h other hmem
    refine ⟨front ++ front', back, by rw [hrest, hback, List.append_assoc], ?_⟩
    rw [hoffset] at hstands
    simpa [Nat.add_assoc] using hstands

theorem Cursor.covers_split (cursor : Cursor) : cursor.Covers (Segment.split cursor.lexemes) := by
  fun_induction lexemes cursor with
  | case1 cursor hend =>
      cases hnext : cursor.next.1 with
      | error error => simp [hnext, Lexeme.isEnd] at hend
      | ok token =>
          have hkind : token.kind = .endOfInput := by
            simpa [hnext, Lexeme.isEnd] using hend
          have hterminator : Segment.isTerminator token = true := by
            simp [Segment.isTerminator, hkind]
          simp only [Segment.split, hterminator, if_true]
          exact .cons cursor.exists_front_next (Segment.standsIn_nil rfl _ _) (by simp)
  | case2 cursor hend ih =>
      cases hnext : cursor.next.1 with
      | error error =>
          cases hsplit : Segment.split cursor.next.2.lexemes with
          | nil => simp [Segment.split, Segment.push, hsplit, Covers]
          | cons first others =>
              rw [hsplit] at ih
              simp only [Segment.split, Segment.push, hsplit]
              exact .cons cursor.exists_front_next (Segment.standsIn_nil rfl _ _)
                fun segment hmem => ih.2 segment (by simp [hmem])
      | ok token =>
          cases hterminator : Segment.isTerminator token with
          | true =>
              simp only [Segment.split, hterminator, if_true]
              exact .cons cursor.exists_front_next (Segment.standsIn_nil rfl _ _) ih.2
          | false =>
              cases hsplit : Segment.split cursor.next.2.lexemes with
              | nil => simp [Segment.split, Segment.push, hsplit, hterminator, Covers]
              | cons first others =>
                  rw [hsplit] at ih
                  simp only [Segment.split, Segment.push, hsplit, hterminator,
                    Bool.false_eq_true, if_false]
                  have hfirst := ih.1 first (by simp)
                  exact .cons cursor.exists_front_next
                    (hfirst.push (Prod.ext hnext rfl) hterminator)
                    fun segment hmem => ih.2 segment (by simp [hmem])

/-- The tokens of a segment are those of legible pieces of the source. -/
theorem Script.exists_pieces {source : List Char} {segment : Segment}
    (h : segment ∈ Script.segments source) :
    ∃ front pieces back, source = front ++ spelling pieces ++ back
      ∧ segment.tokens = tokensAt (Text.byteLength front) pieces ∧ Legible pieces := by
  obtain ⟨front, text, hsource, pieces, back, htext, htokens, hlegible⟩ :=
    ((Cursor.atStart source).covers_split).2 segment h
  refine ⟨front, pieces, back, ?_, ?_, hlegible⟩
  · rw [List.append_assoc, ← htext]
    exact hsource
  · simpa [Cursor.atStart] using htokens

end SchemaDelta.Sql
