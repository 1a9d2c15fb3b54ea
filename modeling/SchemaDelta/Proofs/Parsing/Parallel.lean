import Mathlib.Data.List.Forall2
import SchemaDelta.Proofs.Parsing.Readable

/-!
# Parsers beside each other

An input lies beside another one when both hold the same tokens, the ones of the first
input further on in its source, and more tokens follow in the first input alone.  What a
parser does on the first input without a look at these, it does on the other one.
-/

namespace SchemaDelta.Text

theorem splitAtByte?_append_right {n : Nat} {cs : List Char} (h : n ≤ byteLength cs)
    (back : List Char) :
    splitAtByte? n (cs ++ back) = (splitAtByte? n cs).map fun cut => (cut.1, cut.2 ++ back) := by
  induction cs generalizing n with
  | nil =>
      obtain rfl : n = 0 := Nat.le_zero.mp h
      cases back <;> rfl
  | cons c cs ih =>
      cases n with
      | zero => rfl
      | succ n =>
          rw [byteLength_cons] at h
          rw [List.cons_append, splitAtByte?, splitAtByte?]
          split
          next => simp [ih (show n + 1 - c.utf8Size ≤ byteLength cs by omega), Function.comp_def]
          next => rfl

theorem dropBytes?_append (front : List Char) (n : Nat) (cs : List Char) :
    dropBytes? (byteLength front + n) (front ++ cs) = dropBytes? n cs := by
  induction front with
  | nil => simp
  | cons c front ih =>
      have hpos := c.utf8Size_pos
      obtain ⟨m, hm⟩ : ∃ m, c.utf8Size + byteLength front + n = m + 1 :=
        ⟨c.utf8Size + byteLength front + n - 1, by omega⟩
      have hrest : m + 1 - c.utf8Size = byteLength front + n := by omega
      rw [byteLength_cons, hm, List.cons_append, dropBytes?, if_pos (by omega), hrest, ih]

/-- A part of a text is cut out of it as out of the whole. -/
theorem slice_within (front cs back : List Char) (start : Nat) {stop : Nat}
    (hstop : stop ≤ byteLength cs) :
    slice (byteLength front + start) (byteLength front + stop) (front ++ cs ++ back)
      = slice start stop cs := by
  unfold slice
  rw [List.append_assoc, dropBytes?_append, Nat.add_sub_add_left, dropBytes?_eq, dropBytes?_eq]
  by_cases hle : start ≤ stop
  · rw [splitAtByte?_append_right (hle.trans hstop)]
    cases hcut : splitAtByte? start cs with
    | none => rfl
    | some cut =>
        obtain ⟨before, rest⟩ := cut
        obtain ⟨happend, hlength⟩ := append_of_splitAtByte? hcut
        have hrest : stop - start ≤ byteLength rest := by
          rw [← happend, byteLength_append] at hstop
          omega
        simp only [Option.map_some, Nat.add_le_add_iff_left, hle, if_true]
        rw [splitAtByte?_append_right hrest]
        cases splitAtByte? (stop - start) rest <;> rfl
  · simp only [Nat.add_le_add_iff_left, hle, if_false]
    cases (splitAtByte? start (cs ++ back)).map (·.2) <;>
      cases (splitAtByte? start cs).map (·.2) <;> rfl

end SchemaDelta.Text

namespace SchemaDelta.Sql

/-! ## Further on in a source -/

def Span.shift (shift : Nat) (span : Span) : Span :=
  ⟨shift + span.start, shift + span.stop⟩

def Token.shift (shift : Nat) (token : Token) : Token :=
  { token with span := token.span.shift shift }

theorem Token.shift_zero (token : Token) : token.shift 0 = token := by
  simp [shift, Span.shift]

theorem tokensAt_shift (shift offset : Nat) (pieces : List Piece) :
    tokensAt (shift + offset) pieces = (tokensAt offset pieces).map (Token.shift shift) := by
  induction pieces generalizing offset with
  | nil => rfl
  | cons piece pieces ih =>
      rw [tokensAt_cons, tokensAt_cons, Nat.add_assoc, ih]
      simp [Token.shift, Span.shift, Piece.token, Nat.add_assoc]

namespace Input

variable {input middle after other : Input} {shift : Nat} {back : List Token}

/-- What is left of an input, of which some tokens were read. -/
structure Follows (input after : Input) : Prop where
  source : after.source = input.source
  stop : after.stop = input.stop
  read : ∃ front, input.tokens = front ++ after.tokens
    ∧ after.lastStop = (front.getLast?.map (·.span.stop)).getD input.lastStop

theorem Follows.refl (input : Input) : input.Follows input :=
  ⟨rfl, rfl, [], rfl, rfl⟩

theorem Follows.trans (h : input.Follows middle) (hafter : middle.Follows after) :
    input.Follows after := by
  obtain ⟨first, hfirst, hlast⟩ := h.read
  obtain ⟨second, hsecond, hlast'⟩ := hafter.read
  refine ⟨hafter.source.trans h.source, hafter.stop.trans h.stop, first ++ second, ?_, ?_⟩
  · rw [hfirst, hsecond, List.append_assoc]
  · rw [hlast', hlast, List.getLast?_append]
    cases second.getLast? <;> rfl

theorem Follows.length_le (h : input.Follows after) :
    after.tokens.length ≤ input.tokens.length := by
  obtain ⟨front, htokens, -⟩ := h.read
  simp [htokens]

theorem follows_advance (input : Input) : input.Follows input.advance := by
  unfold advance
  split
  next => exact .refl input
  next token tokens htokens => exact ⟨rfl, rfl, [token], by simp [htokens], rfl⟩

/-- The tokens of the other input, moved, and then `back`, which the other input lacks. -/
structure Beside (shift : Nat) (back : List Token) (input other : Input) : Prop where
  stop : Segment.isTerminator input.stop = true
  source : ∃ front rest, input.source = front ++ other.source ++ rest
    ∧ Text.byteLength front = shift
  tokens : input.tokens = other.tokens.map (Token.shift shift) ++ back
  lastStop : input.lastStop = shift + other.lastStop
  lastStop_le : other.lastStop ≤ Text.byteLength other.source
  stop_le : ∀ token ∈ other.tokens, token.span.stop ≤ Text.byteLength other.source

namespace Beside

theorem length (h : input.Beside shift back other) :
    input.tokens.length = other.tokens.length + back.length := by
  rw [h.tokens, List.length_append, List.length_map]

theorem current (h : input.Beside shift back other) (hlt : back.length < input.tokens.length) :
    input.current = other.current.shift shift := by
  have hlength := h.length
  unfold Input.current
  rw [h.tokens]
  cases htokens : other.tokens with
  | nil =>
      rw [htokens] at hlength
      simp at hlength
      omega
  | cons token tokens => rfl

theorem advance (h : input.Beside shift back other)
    (hle : back.length ≤ input.advance.tokens.length) :
    input.advance.Beside shift back other.advance := by
  obtain ⟨source, tokens, stop, last⟩ := input
  obtain ⟨source', tokens', stop', last'⟩ := other
  obtain ⟨hstop, hsource, htokens, hlast, hlast_le, hstop_le⟩ := h
  dsimp only at hstop hsource htokens hlast hlast_le hstop_le
  subst htokens
  cases tokens' with
  | nil =>
      cases back with
      | nil => exact ⟨hstop, hsource, rfl, hlast, hlast_le, hstop_le⟩
      | cons token back => exact absurd hle (by simp [Input.advance])
  | cons token tokens' =>
      exact ⟨hstop, hsource, rfl, rfl, hstop_le token (by simp),
        fun other hother => hstop_le other (List.mem_cons_of_mem _ hother)⟩

theorem text (h : input.Beside shift back other) (start : Nat) {stop : Nat}
    (hstop : stop ≤ Text.byteLength other.source) :
    Span.text ⟨shift + start, shift + stop⟩ input.source
      = Span.text ⟨start, stop⟩ other.source := by
  obtain ⟨front, rest, hsource, rfl⟩ := h.source
  rw [Span.text, Span.text, hsource]
  exact congrArg String.ofList (Text.slice_within front other.source rest start hstop)

end Beside

end Input

namespace Parser

variable {α β γ : Type} {shift slack : Nat} {p : Parser α} {f : α → Parser β} {a : α}

/-- The parser does nothing to its input but to read tokens. -/
def Advances (p : Parser α) : Prop :=
  ∀ input after a, p.parse input = (.ok a, after) → input.Follows after

/-- If the first parser succeeds and leaves as many of the further tokens as `slack` says,
then the second one does the same on the other input. -/
structure Parallel (shift slack : Nat) (p : Parser α) (q : Parser β) (R : α → β → Prop) :
    Prop where
  advances : Advances p
  beside : ∀ {input after a back other}, p.parse input = (.ok a, after) →
    input.Beside shift back other → back.length + slack ≤ after.tokens.length →
      ∃ b next, q.parse other = (.ok b, next) ∧ R a b ∧ after.Beside shift back next

/-- The parser does not tell two inputs beside each other apart, if it leaves something. -/
abbrev Local (shift : Nat) (p : Parser α) : Prop :=
  Parallel shift 1 p p Eq

/-! ## Sequences -/

theorem Advances.bind (hp : Advances p) (hf : ∀ a, Advances (f a)) : Advances (p >>= f) := by
  intro input after b hparse
  obtain ⟨a, middle, hfirst, hrest⟩ := exists_of_parse_bind hparse
  exact (hp _ _ _ hfirst).trans (hf a _ _ _ hrest)

theorem advances_pure (a : α) : Advances (pure a) := by
  intro input after a' hparse
  obtain ⟨rfl, rfl⟩ : a = a' ∧ input = after := by simpa [parse_pure] using hparse
  exact .refl input

theorem parallel_pure {R : α → β → Prop} {b : β} (h : R a b) :
    Parallel shift slack (pure a) (pure b) R := by
  refine ⟨advances_pure a, ?_⟩
  intro input after a' back other hparse hbeside _
  obtain ⟨rfl, rfl⟩ : a = a' ∧ input = after := by simpa [parse_pure] using hparse
  exact ⟨b, other, rfl, h, hbeside⟩

section Bind

variable {δ : Type} {R : α → β → Prop} {S : γ → δ → Prop} {q : Parser β} {f : α → Parser γ}
  {g : β → Parser δ}

theorem Parallel.bind (hp : Parallel shift slack p q R) (hadvances : ∀ a, Advances (f a))
    (hf : ∀ a b, R a b → Parallel shift slack (f a) (g b) S) :
    Parallel shift slack (p >>= f) (q >>= g) S := by
  refine ⟨hp.advances.bind hadvances, ?_⟩
  intro input after c back other hparse hbeside hle
  obtain ⟨a, middle, hfirst, hrest⟩ := exists_of_parse_bind hparse
  have hlength := (hadvances a _ _ _ hrest).length_le
  obtain ⟨b, next, hq, hab, hmiddle⟩ := hp.beside hfirst hbeside (hle.trans hlength)
  obtain ⟨d, last, hg, hcd, hafter⟩ := (hf a b hab).beside hrest hmiddle hle
  refine ⟨d, last, ?_, hcd, hafter⟩
  rw [parse_bind, hq]
  exact hg

theorem Parallel.imp {R' : α → β → Prop} (h : Parallel shift slack p q R)
    (hR : ∀ a b, R a b → R' a b) : Parallel shift slack p q R' := by
  refine ⟨h.advances, ?_⟩
  intro input after a back other hparse hbeside hle
  obtain ⟨b, next, hq, hab, hafter⟩ := h.beside hparse hbeside hle
  exact ⟨b, next, hq, hR a b hab, hafter⟩

/-- What comes behind a value is computed from it. -/
theorem Parallel.map {u : α → γ} {v : β → δ} (hp : Parallel shift slack p q R)
    (hS : ∀ a b, R a b → S (u a) (v b)) :
    Parallel shift slack (p >>= fun a => pure (u a)) (q >>= fun b => pure (v b)) S :=
  hp.bind (fun _ => advances_pure _) fun a b hab => parallel_pure (hS a b hab)

theorem Parallel.ite {c : Prop} [Decidable c] {p' : Parser α} {q' : Parser β}
    (h : Parallel shift slack p q R) (h' : Parallel shift slack p' q' R) :
    Parallel shift slack (if c then p else p') (if c then q else q') R := by
  split
  next => exact h
  next => exact h'

end Bind

theorem Local.bind {δ : Type} {S : γ → δ → Prop} {f : α → Parser γ} {g : α → Parser δ}
    (hp : Local shift p) (hf : ∀ a, Parallel shift 1 (f a) (g a) S) :
    Parallel shift 1 (p >>= f) (p >>= g) S :=
  Parallel.bind hp (fun a => (hf a).advances) fun a _ hab => hab ▸ hf a

theorem Local.map (h : Local shift p) (u : α → γ) : Local shift (p >>= fun a => pure (u a)) :=
  h.bind fun _ => parallel_pure rfl

/-! ## Single tokens -/

theorem parallel_current :
    Parallel shift 1 current current fun token token' => token = token'.shift shift := by
  constructor
  · intro input after token hparse
    obtain ⟨-, rfl⟩ : input.current = token ∧ input = after := by
      simpa [parse_current] using hparse
    exact .refl input
  · intro input after token back other hparse hbeside hle
    obtain ⟨rfl, rfl⟩ : input.current = token ∧ input = after := by
      simpa [parse_current] using hparse
    exact ⟨other.current, other, rfl, hbeside.current hle, hbeside⟩

/-- Parsers that go on from the current token, whatever the shift. -/
theorem parallel_of_current {f : Token → Parser γ} {S : Nat → γ → γ → Prop}
    (hf : ∀ shift token, Parallel shift 1 (f (token.shift shift)) (f token) (S shift)) :
    Parallel shift 1 (current >>= f) (current >>= f) (S shift) := by
  refine Parallel.bind parallel_current (fun token => ?_) ?_
  · have hzero := hf 0 token
    rw [token.shift_zero] at hzero
    exact hzero.advances
  · rintro _ token rfl
    exact hf shift token

/-- Parsers that go on from the kind and the text of the current token. -/
theorem local_of_current {f : Token → Parser γ}
    (hsame : ∀ shift token, f (token.shift shift) = f token)
    (hf : ∀ token, Local shift (f token)) : Local shift (current >>= f) := by
  refine Parallel.bind parallel_current (fun token => (hf token).advances) ?_
  rintro _ token rfl
  rw [hsame]
  exact hf token

theorem parallel_advance : Parallel shift slack advance advance Eq := by
  constructor
  · intro input after _ hparse
    obtain rfl : input.advance = after := by simpa [parse_advance] using hparse
    exact input.follows_advance
  · intro input after _ back other hparse hbeside hle
    obtain rfl : input.advance = after := by simpa [parse_advance] using hparse
    exact ⟨(), other.advance, rfl, rfl, hbeside.advance ((Nat.le_add_right _ _).trans hle)⟩

theorem local_advance : Local shift advance :=
  parallel_advance

theorem parallel_of_ne_ok {R : α → β → Prop} {q : Parser β}
    (h : ∀ input after a, p.parse input ≠ (.ok a, after)) : Parallel shift slack p q R := by
  constructor
  · intro input after a hparse
    exact absurd hparse (h input after a)
  · intro input after a back other hparse
    exact absurd hparse (h input after a)

theorem parallel_fail {R : α → β → Prop} (span : Span) (problem : ParseProblem) (q : Parser β) :
    Parallel shift slack (fail span problem) q R :=
  parallel_of_ne_ok fun input after a => by simp [parse_fail]

theorem parallel_unexpected {R : α → β → Prop} (expected : String) (q : Parser β) :
    Parallel shift slack (unexpected expected) q R :=
  parallel_of_ne_ok (parse_unexpected_ne_ok expected)

theorem local_eat (test : TokenKind → Bool) : Local shift (eat test) := by
  refine local_of_current (fun _ _ => rfl) fun token => ?_
  split
  next => exact Local.map local_advance fun _ => true
  next => exact parallel_pure rfl

theorem local_eatKind (kind : TokenKind) : Local shift (eatKind kind) :=
  local_eat _

theorem local_atKind (kind : TokenKind) : Local shift (atKind kind) :=
  local_of_current (fun _ _ => rfl) fun _ => parallel_pure rfl

theorem local_expectKind (kind : TokenKind) : Local shift (expectKind kind) := by
  refine (local_eatKind kind).bind fun found => ?_
  split
  next => exact parallel_pure rfl
  next => exact parallel_unexpected _ _

theorem local_expectKeyword (keyword : Keyword) : Local shift (expectKeyword keyword) := by
  refine (local_eatKind _).bind fun found => ?_
  split
  next => exact parallel_pure rfl
  next => exact parallel_unexpected _ _

theorem local_name : Local shift name := by
  refine local_of_current (fun _ _ => rfl) fun token => ?_
  split
  next => exact Local.map local_advance _
  next => exact parallel_unexpected _ _

theorem local_string : Local shift string := by
  refine local_of_current (fun _ _ => rfl) fun token => ?_
  split
  next => exact Local.map local_advance _
  next => exact parallel_unexpected _ _

theorem local_nameOrString : Local shift nameOrString := by
  refine local_of_current (fun _ _ => rfl) fun token => ?_
  split
  next => exact local_string
  next => exact local_name

theorem local_number : Local shift number := by
  refine parallel_of_current (S := fun _ => Eq) fun shift token => ?_
  dsimp only [Token.shift]
  split
  next =>
    split
    next => exact Local.map local_advance _
    next => exact parallel_fail _ _ _
  next => exact parallel_unexpected _ _

theorem parallel_get {δ : Type} {S : γ → δ → Prop} {u : Input → γ} {v : Input → δ}
    (h : ∀ {back input other}, input.Beside shift back other → S (u input) (v other)) :
    Parallel shift slack (get >>= fun input => pure (u input))
      (get >>= fun input => pure (v input)) S := by
  have hget : ∀ {input after c}, (get >>= fun input => pure (u input) : Parser γ).parse input
      = (.ok c, after) → u input = c ∧ input = after := by
    intro input after c hparse
    rw [parse_bind, parse_get] at hparse
    simpa [parse_pure] using hparse
  constructor
  · intro input after c hparse
    obtain ⟨-, rfl⟩ := hget hparse
    exact .refl input
  · intro input after c back other hparse hbeside _
    obtain ⟨rfl, rfl⟩ := hget hparse
    exact ⟨v other, other, rfl, h hbeside, hbeside⟩

/-! ## Groups -/

theorem exists_front_of_closeGroup? {depth stop : Nat} {tokens rest : List Token}
    (h : closeGroup? depth tokens = some (stop, rest)) :
    ∃ front last, tokens = front ++ last :: rest ∧ last.span.stop = stop := by
  induction tokens generalizing depth with
  | nil => simp [closeGroup?] at h
  | cons token tokens ih =>
      have hrest : ∀ {depth'}, closeGroup? depth' tokens = some (stop, rest) →
          ∃ front last, token :: tokens = front ++ last :: rest ∧ last.span.stop = stop := by
        intro depth' hclose
        obtain ⟨front, last, rfl, hlast⟩ := ih hclose
        exact ⟨token :: front, last, rfl, hlast⟩
      by_cases hleft : token.kind = .leftParen
      · exact hrest (closeGroup?_left _ _ hleft ▸ h)
      · by_cases hright : token.kind = .rightParen
        · cases depth with
          | zero =>
              rw [closeGroup?_right_zero _ hright, Option.some.injEq, Prod.mk.injEq] at h
              obtain ⟨hstop, rfl⟩ := h
              exact ⟨[], token, rfl, hstop⟩
          | succ depth => exact hrest (closeGroup?_right_succ _ _ hright ▸ h)
        · exact hrest (closeGroup?_other _ _ hleft hright ▸ h)

/-- A group that ends in front of the further tokens ends at the same place without them. -/
theorem closeGroup?_of_shift {depth stop : Nat} {tokens back rest : List Token}
    (h : closeGroup? depth (tokens.map (Token.shift shift) ++ back) = some (stop, rest))
    (hle : back.length ≤ rest.length) :
    ∃ stop' rest', closeGroup? depth tokens = some (stop', rest') ∧ stop = shift + stop'
      ∧ rest = rest'.map (Token.shift shift) ++ back := by
  induction tokens generalizing depth with
  | nil =>
      obtain ⟨front, last, heq, -⟩ := exists_front_of_closeGroup? h
      have hlength := congrArg List.length heq
      simp only [List.map_nil, List.nil_append, List.length_append, List.length_cons] at hlength
      omega
  | cons token tokens ih =>
      have hkind : (token.shift shift).kind = token.kind := rfl
      rw [List.map_cons, List.cons_append] at h
      by_cases hleft : token.kind = .leftParen
      · rw [closeGroup?_left _ _ (hkind.trans hleft)] at h
        rw [closeGroup?_left _ _ hleft]
        exact ih h
      · by_cases hright : token.kind = .rightParen
        · cases depth with
          | zero =>
              rw [closeGroup?_right_zero _ (hkind.trans hright), Option.some.injEq,
                Prod.mk.injEq] at h
              obtain ⟨rfl, rfl⟩ := h
              exact ⟨_, tokens, closeGroup?_right_zero _ hright, rfl, rfl⟩
          | succ depth =>
              rw [closeGroup?_right_succ _ _ (hkind.trans hright)] at h
              rw [closeGroup?_right_succ _ _ hright]
              exact ih h
        · rw [closeGroup?_other _ _ (hkind ▸ hleft) (hkind ▸ hright)] at h
          rw [closeGroup?_other _ _ hleft hright]
          exact ih h

/-- Reads on to the end of a group that begins at `start`. -/
def groupFrom (start : Nat) : Parser String := do
  let input ← get
  match closeGroup? 0 input.tokens with
  | some (stop, tokens) =>
      set { input with tokens, lastStop := stop }
      return Span.text ⟨start, stop⟩ input.source
  | none =>
      set { input with tokens := [] }
      unexpected "')'"

theorem parse_groupFrom_eq_ok_iff {start : Nat} {input after : Input} {text : String} :
    (groupFrom start).parse input = (.ok text, after) ↔
      ∃ stop tokens, closeGroup? 0 input.tokens = some (stop, tokens)
        ∧ text = Span.text ⟨start, stop⟩ input.source
        ∧ after = { input with tokens, lastStop := stop } := by
  rw [groupFrom, parse_bind, parse_get]
  dsimp only
  cases hclose : closeGroup? 0 input.tokens with
  | none =>
      have hfails : ∀ expected, (do set { input with tokens := [] }; unexpected expected
          : Parser String).parse input ≠ (.ok text, after) := by
        intro expected hparse
        rw [parse_bind, parse_set] at hparse
        exact parse_unexpected_ne_ok _ _ _ _ hparse
      simp [hfails]
  | some close =>
      obtain ⟨stop, tokens⟩ := close
      dsimp only
      rw [parse_bind, parse_set]
      simp [parse_pure, eq_comm]

theorem parallel_groupFrom (start : Nat) :
    Parallel shift slack (groupFrom (shift + start)) (groupFrom start) Eq := by
  constructor
  · intro input after text hparse
    obtain ⟨stop, tokens, hclose, -, rfl⟩ := parse_groupFrom_eq_ok_iff.mp hparse
    obtain ⟨front, last, htokens, hlast⟩ := exists_front_of_closeGroup? hclose
    exact ⟨rfl, rfl, front ++ [last], by simp [htokens], by simp [hlast]⟩
  · intro input after text back other hparse hbeside hle
    obtain ⟨stop, tokens, hclose, rfl, rfl⟩ := parse_groupFrom_eq_ok_iff.mp hparse
    rw [hbeside.tokens] at hclose
    obtain ⟨stop, rest, hother, rfl, rfl⟩ :=
      closeGroup?_of_shift hclose ((Nat.le_add_right _ _).trans hle)
    obtain ⟨front, last, htokens, rfl⟩ := exists_front_of_closeGroup? hother
    have hstop := hbeside.stop_le last (by simp [htokens])
    refine ⟨_, { other with tokens := rest, lastStop := last.span.stop },
      parse_groupFrom_eq_ok_iff.mpr ⟨_, rest, hother, rfl, rfl⟩, hbeside.text start hstop, ?_⟩
    exact ⟨hbeside.stop, hbeside.source, rfl, rfl, hstop, fun token hmem =>
      hbeside.stop_le token (by simp [htokens, hmem])⟩

theorem local_group : Local shift group :=
  parallel_of_current (S := fun _ => Eq) fun _ token =>
    (local_expectKind .leftParen).bind fun _ => parallel_groupFrom token.span.start

/-! ## Repetition -/

theorem parse_repeatWhile_stuck {step : Parser (α × Bool)} {input after : Input}
    (h : step.parse input = (.ok (a, true), after))
    (hlength : ¬after.tokens.length < input.tokens.length) :
    (repeatWhile step).parse input = (.ok [a], after) := by
  change repeatFrom step input = _
  change step.run input = _ at h
  rw [repeatFrom, h]
  simp [hlength]

theorem advances_repeatWhile {step : Parser (α × Bool)} (h : Advances step) :
    Advances (repeatWhile step) := by
  intro input after as hparse
  change repeatFrom step input = _ at hparse
  fun_induction repeatFrom step input generalizing as with
  | case1 => simp at hparse
  | case2 input a middle hstep =>
      obtain ⟨rfl, rfl⟩ : [a] = as ∧ middle = after := by simpa using hparse
      exact h _ _ _ hstep
  | case3 input a middle hstep hshorter rest last hrest ih =>
      cases rest with
      | error => simp [Except.map] at hparse
      | ok rest =>
          obtain ⟨rfl, rfl⟩ : a :: rest = as ∧ last = after := by
            simpa [Except.map] using hparse
          exact (h _ _ _ hstep).trans (ih rest hrest)
  | case4 input a middle hstep =>
      obtain ⟨rfl, rfl⟩ : [a] = as ∧ middle = after := by simpa using hparse
      exact h _ _ _ hstep

theorem parallel_repeatWhile {R : α → β → Prop} {step : Parser (α × Bool)}
    {step' : Parser (β × Bool)}
    (h : Parallel shift slack step step' fun result result' =>
      R result.1 result'.1 ∧ result.2 = result'.2) :
    Parallel shift slack (repeatWhile step) (repeatWhile step') (List.Forall₂ R) := by
  refine ⟨advances_repeatWhile h.advances, ?_⟩
  intro input after as back other hparse hbeside hle
  change repeatFrom step input = _ at hparse
  fun_induction repeatFrom step input generalizing as other with
  | case1 => simp at hparse
  | case2 input a middle hstep =>
      obtain ⟨rfl, rfl⟩ : [a] = as ∧ middle = after := by simpa using hparse
      obtain ⟨⟨b, _⟩, next, hother, ⟨hab, rfl⟩, hafter⟩ := h.beside hstep hbeside hle
      exact ⟨[b], next, parse_repeatWhile_false hother, .cons hab .nil, hafter⟩
  | case3 input a middle hstep hshorter rest last hrest ih =>
      cases rest with
      | error => simp [Except.map] at hparse
      | ok rest =>
          obtain ⟨rfl, rfl⟩ : a :: rest = as ∧ last = after := by
            simpa [Except.map] using hparse
          have hlength := (advances_repeatWhile h.advances _ _ _ hrest).length_le
          obtain ⟨⟨b, _⟩, next, hother, ⟨hab, rfl⟩, hmiddle⟩ :=
            h.beside hstep hbeside (hle.trans hlength)
          obtain ⟨bs, last', hothers, habs, hafter⟩ := ih hmiddle hrest
          refine ⟨b :: bs, last', parse_repeatWhile_true hother ?_ hothers, .cons hab habs, hafter⟩
          have hbefore := hbeside.length
          have hbehind := hmiddle.length
          omega
  | case4 input a middle hstep hshorter =>
      obtain ⟨rfl, rfl⟩ : [a] = as ∧ middle = after := by simpa using hparse
      obtain ⟨⟨b, _⟩, next, hother, ⟨hab, rfl⟩, hafter⟩ := h.beside hstep hbeside hle
      refine ⟨[b], next, parse_repeatWhile_stuck hother ?_, .cons hab .nil, hafter⟩
      have hbefore := hbeside.length
      have hbehind := hafter.length
      omega

theorem local_repeatWhile {step : Parser (α × Bool)} (h : Local shift step) :
    Local shift (repeatWhile step) := by
  refine (parallel_repeatWhile (R := Eq) (h.imp fun result _ heq => ?_)).imp fun as bs has => ?_
  · exact ⟨congrArg Prod.fst heq, congrArg Prod.snd heq⟩
  · rwa [List.forall₂_eq_eq_eq] at has

theorem local_commaSeparated {item : Parser α} (h : Local shift item) :
    Local shift (commaSeparated item) :=
  local_repeatWhile (h.bind fun _ => (local_eatKind _).map _)

end Parser

end SchemaDelta.Sql
