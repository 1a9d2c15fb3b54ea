import SchemaDelta.Proofs.Lexing.Legible
import SchemaDelta.Proofs.Parsing.Accepts

/-!
# What parsers keep

The input of a parser is standing when its tokens are those of legible pieces of the
source.  No parser leaves this state, and what a parser gives has properties that
follow from it.
-/

namespace SchemaDelta.Sql

/-- The tokens are those of legible pieces that stand in the source. -/
def Input.Standing (input : Input) : Prop :=
  (∃ offset pieces, input.tokens = tokensAt offset pieces
    ∧ StandsAt input.source offset pieces ∧ Legible pieces)
  ∧ Segment.isTerminator input.stop = true

/-- A token that ends a segment, or the text of a piece. -/
def Token.Genuine (token : Token) : Prop :=
  Segment.isTerminator token = true ∨ Whole token.kind token.text.toList

theorem Piece.genuine {piece : Piece} (h : Whole piece.kind piece.text) (offset : Nat) :
    (piece.token offset).Genuine := by
  refine .inr ?_
  rw [kind_token, text_token, String.toList_ofList]
  exact h

namespace Input.Standing

variable {input : Input}

theorem current (h : input.Standing) : input.current.Genuine := by
  obtain ⟨⟨offset, pieces, htokens, -, hlegible⟩, hstop⟩ := h
  unfold Input.current
  rw [htokens]
  cases pieces with
  | nil => exact .inl hstop
  | cons piece pieces => exact Piece.genuine hlegible.whole offset

theorem advance (h : input.Standing) : input.advance.Standing := by
  obtain ⟨⟨offset, pieces, htokens, hstands, hlegible⟩, hstop⟩ := h
  cases pieces with
  | nil =>
      rw [tokensAt_nil] at htokens
      have hsame : input.advance = input := by simp [Input.advance, htokens]
      rw [hsame]
      exact ⟨⟨offset, [], htokens, hstands, hlegible⟩, hstop⟩
  | cons piece pieces =>
      rw [tokensAt_cons] at htokens
      have hnext : input.advance = { input with
          tokens := tokensAt (offset + Text.byteLength piece.spelling) pieces
          lastStop := (piece.token offset).span.stop } := by
        simp [Input.advance, htokens]
      have hboth : StandsAt input.source offset ([piece] ++ pieces) := hstands
      have hright := hboth.right
      rw [spelling_cons, spelling_nil, List.append_nil] at hright
      rw [hnext]
      exact ⟨⟨_, pieces, rfl, hright, hlegible.2.2⟩, hstop⟩

end Input.Standing

namespace Parser

variable {α β : Type} {p : Parser α} {f : α → Parser β} {a : α} {Q : α → Prop} {R : β → Prop}

/-- From a standing input the parser leads to another one, with a value that has the
property. -/
def Keeps (p : Parser α) (Q : α → Prop) : Prop :=
  ∀ (input after : Input) (a : α), input.Standing → p.parse input = (.ok a, after) →
    Q a ∧ after.Standing

/-- Nothing is said about the value. -/
abbrev Stays (p : Parser α) : Prop :=
  Keeps p fun _ => True

theorem keeps_pure (h : Q a) : Keeps (pure a) Q := by
  intro input after b hstanding hparse
  obtain ⟨rfl, rfl⟩ : a = b ∧ input = after := by simpa [parse_pure] using hparse
  exact ⟨h, hstanding⟩

theorem Keeps.bind (hp : Keeps p Q) (hf : ∀ a, Q a → Keeps (f a) R) : Keeps (p >>= f) R := by
  intro input after b hstanding hparse
  obtain ⟨a, middle, hfirst, hrest⟩ := exists_of_parse_bind hparse
  obtain ⟨ha, hmiddle⟩ := hp _ _ _ hstanding hfirst
  exact hf a ha _ _ _ hmiddle hrest

theorem Stays.bind (hp : Stays p) (hf : ∀ a, Keeps (f a) R) : Keeps (p >>= f) R :=
  Keeps.bind hp fun a _ => hf a

theorem Keeps.imp {Q' : α → Prop} (h : Keeps p Q) (hQ : ∀ a, Q a → Q' a) : Keeps p Q' := by
  intro input after a hstanding hparse
  obtain ⟨ha, hafter⟩ := h _ _ _ hstanding hparse
  exact ⟨hQ a ha, hafter⟩

theorem Keeps.stays (h : Keeps p Q) : Stays p :=
  h.imp fun _ _ => trivial

theorem Keeps.map (h : Keeps p Q) {g : α → β} (hR : ∀ a, Q a → R (g a)) :
    Keeps (p >>= fun a => pure (g a)) R :=
  h.bind fun a ha => keeps_pure (hR a ha)

theorem Stays.map (h : Stays p) (g : α → β) : Stays (p >>= fun a => pure (g a)) :=
  Stays.bind h fun _ => keeps_pure trivial

theorem Keeps.ite {c : Prop} [Decidable c] {q : Parser α} (hp : Keeps p Q) (hq : Keeps q Q) :
    Keeps (if c then p else q) Q := by
  split
  next => exact hp
  next => exact hq

/-! ## Single tokens -/

theorem keeps_current : Keeps current Token.Genuine := by
  intro input after token hstanding hparse
  obtain ⟨rfl, rfl⟩ : input.current = token ∧ input = after := by
    simpa [parse_current] using hparse
  exact ⟨hstanding.current, hstanding⟩

theorem stays_get : Stays get := by
  intro input after value hstanding hparse
  obtain ⟨rfl, rfl⟩ : input = value ∧ input = after := by simpa [parse_get] using hparse
  exact ⟨trivial, hstanding⟩

theorem stays_advance : Stays advance := by
  intro input after _ hstanding hparse
  obtain rfl : input.advance = after := by simpa [parse_advance] using hparse
  exact ⟨trivial, hstanding.advance⟩

theorem keeps_fail (span : Span) (problem : ParseProblem) : Keeps (fail span problem) Q := by
  intro input after a _ hparse
  simp [parse_fail] at hparse

theorem keeps_unexpected (expected : String) : Keeps (unexpected expected) Q := by
  intro input after a _ hparse
  exact absurd hparse (parse_unexpected_ne_ok expected input after a)

theorem stays_eat (test : TokenKind → Bool) : Stays (eat test) := by
  refine Keeps.bind keeps_current fun token _ => ?_
  split
  next => exact Stays.map stays_advance fun _ => true
  next => exact keeps_pure trivial

theorem stays_eatKind (kind : TokenKind) : Stays (eatKind kind) :=
  stays_eat _

theorem stays_atKind (kind : TokenKind) : Stays (atKind kind) :=
  keeps_current.stays.map _

theorem stays_expectKind (kind : TokenKind) : Stays (expectKind kind) := by
  refine (stays_eatKind kind).bind fun found => ?_
  split
  next => exact keeps_pure trivial
  next => exact keeps_unexpected _

theorem stays_expectKeyword (keyword : Keyword) : Stays (expectKeyword keyword) := by
  refine (stays_eatKind _).bind fun found => ?_
  split
  next => exact keeps_pure trivial
  next => exact keeps_unexpected _

theorem stays_name : Stays name := by
  refine Keeps.bind keeps_current fun token _ => ?_
  split
  next => exact Stays.map stays_advance _
  next => exact keeps_unexpected _

theorem stays_string : Stays string := by
  refine Keeps.bind keeps_current fun token _ => ?_
  split
  next => exact Stays.map stays_advance _
  next => exact keeps_unexpected _

theorem stays_nameOrString : Stays nameOrString := by
  refine Keeps.bind keeps_current fun token _ => ?_
  split
  next => exact stays_string
  next => exact stays_name

theorem le_of_word32? {cs : List Char} {n : Nat} (h : Text.word32? cs = some n) :
    n ≤ 4294967295 := by
  have hbound := (Option.filter_eq_some_iff.mp h).2
  simpa using hbound

theorem keeps_number : Keeps number (· ≤ 4294967295) := by
  refine Keeps.bind keeps_current fun token _ => ?_
  split
  next =>
    split
    next n hn => exact Stays.bind stays_advance fun _ => keeps_pure (le_of_word32? hn)
    next => exact keeps_fail _ _
  next => exact keeps_unexpected _

/-! ## Repetition -/

theorem keeps_repeatWhile {step : Parser (α × Bool)} (h : Keeps step fun result => Q result.1) :
    Keeps (repeatWhile step) fun as => as ≠ [] ∧ ∀ a ∈ as, Q a := by
  intro input after as hstanding hparse
  change repeatFrom step input = _ at hparse
  fun_induction repeatFrom step input generalizing as with
  | case1 => simp at hparse
  | case2 input a middle hstep =>
      obtain ⟨rfl, rfl⟩ : [a] = as ∧ middle = after := by simpa using hparse
      obtain ⟨ha, hmiddle⟩ := h _ _ _ hstanding hstep
      exact ⟨⟨by simp, by simpa using ha⟩, hmiddle⟩
  | case3 input a middle hstep hshorter rest last hrest ih =>
      obtain ⟨ha, hmiddle⟩ := h _ _ _ hstanding hstep
      cases rest with
      | error => simp [Except.map] at hparse
      | ok rest =>
          obtain ⟨rfl, rfl⟩ : a :: rest = as ∧ last = after := by
            simpa [Except.map] using hparse
          obtain ⟨⟨-, hall⟩, hafter⟩ := ih rest hmiddle hrest
          exact ⟨⟨by simp, List.forall_mem_cons.mpr ⟨ha, hall⟩⟩, hafter⟩
  | case4 input a middle hstep =>
      obtain ⟨rfl, rfl⟩ : [a] = as ∧ middle = after := by simpa using hparse
      obtain ⟨ha, hmiddle⟩ := h _ _ _ hstanding hstep
      exact ⟨⟨by simp, by simpa using ha⟩, hmiddle⟩

theorem keeps_commaSeparated {item : Parser α} (h : Keeps item Q) :
    Keeps (commaSeparated item) fun as => as ≠ [] ∧ ∀ a ∈ as, Q a := by
  refine keeps_repeatWhile (h.bind fun a ha => ?_)
  exact (stays_eatKind _).bind fun _ => keeps_pure ha

end Parser

end SchemaDelta.Sql
