import SchemaDelta.Proofs.Parsing.Local

/-!
# Parsers in front of more tokens

What a parser reads of an input that ends, it also reads of one that goes on, unless it goes
on with a token that the parser would read as well.  This is what makes texts that are read
by themselves fit together.
-/

namespace SchemaDelta.Sql

variable {shift : Nat}

namespace Input

/-- The input holds the tokens of the other one, with the same text, further on in its
source.  The other input ends behind them; this one goes on with `back`, up to `stop`. -/
structure Along (shift : Nat) (back : List Token) (stop : Token) (input other : Input) :
    Prop where
  stop : input.stop = stop
  ends : other.stop.kind = .endOfInput
  tokens : input.tokens = other.tokens.map (Token.shift shift) ++ back
  text : ∀ first ∈ other.tokens, ∀ last ∈ other.tokens,
    Span.text ⟨shift + first.span.start, shift + last.span.stop⟩ input.source
      = Span.text ⟨first.span.start, last.span.stop⟩ other.source

/-- The kind of what stands behind the tokens that are the same. -/
def kindBehind (back : List Token) (stop : Token) : TokenKind :=
  (back.head?.getD stop).kind

theorem Follows.mem {input after : Input} (h : input.Follows after) {token : Token}
    (hmem : token ∈ after.tokens) : token ∈ input.tokens := by
  obtain ⟨front, htokens, -⟩ := h.read
  rw [htokens]
  exact List.mem_append_right _ hmem

namespace Along

variable {input other : Input} {back : List Token} {stop : Token}

theorem rest (h : input.Along shift back stop other) {tokens : List Token}
    (hsub : ∀ token ∈ tokens, token ∈ other.tokens) (last last' : Nat) :
    Along shift back stop
      ⟨input.source, tokens.map (Token.shift shift) ++ back, input.stop, last⟩
      ⟨other.source, tokens, other.stop, last'⟩ :=
  ⟨h.stop, h.ends, rfl, fun first hfirst second hsecond =>
    h.text first (hsub first hfirst) second (hsub second hsecond)⟩

theorem current_cons (h : input.Along shift back stop other) {token : Token} {tokens : List Token}
    (htokens : other.tokens = token :: tokens) :
    input.current = token.shift shift ∧ other.current = token := by
  unfold current
  rw [h.tokens, htokens]
  exact ⟨rfl, rfl⟩

theorem advance_cons (h : input.Along shift back stop other) {token : Token} {tokens : List Token}
    (htokens : other.tokens = token :: tokens) :
    input.advance.Along shift back stop other.advance := by
  have hrest := h.rest (fun token (hmem : token ∈ tokens) => htokens ▸ List.mem_cons_of_mem _ hmem)
    (token.shift shift).span.stop token.span.stop
  unfold advance
  rw [h.tokens, htokens]
  exact hrest

theorem kind_current_nil (h : input.Along shift back stop other) (htokens : other.tokens = []) :
    input.current.kind = kindBehind back stop ∧ other.current.kind = .endOfInput := by
  rw [current_nil htokens, current, h.tokens, htokens, h.stop]
  exact ⟨rfl, h.ends⟩

theorem exists_cons (h : input.Along shift back stop other)
    (hkind : other.current.kind ≠ .endOfInput) :
    ∃ token tokens, other.tokens = token :: tokens := by
  cases htokens : other.tokens with
  | nil => exact absurd (h.kind_current_nil htokens).2 hkind
  | cons token tokens => exact ⟨token, tokens, rfl⟩

/-- Both inputs are at tokens of one kind, unless the other one is at its end. -/
theorem kind_current (h : input.Along shift back stop other) :
    input.current.kind = other.current.kind
      ∨ other.tokens = [] ∧ input.current.kind = kindBehind back stop
        ∧ other.current.kind = .endOfInput := by
  cases htokens : other.tokens with
  | nil => exact .inr ⟨rfl, h.kind_current_nil htokens⟩
  | cons token tokens =>
      obtain ⟨hcurrent, hother⟩ := h.current_cons htokens
      rw [hcurrent, hother]
      exact .inl rfl

end Along

end Input

namespace Parser

open Input

variable {α β : Type} {least : Nat} {follow follow' : TokenKind → Prop} {p q : Parser α}
  {f g : α → Parser β} {a : α}

/-- What the second parser reads of an input that ends, the first one reads of an input that
goes on, if nothing is left or `follow` admits what comes. -/
structure Widens (shift least : Nat) (follow : TokenKind → Prop) (p q : Parser α) : Prop where
  advances : Advances q
  along : ∀ {input other next back stop a}, q.parse other = (.ok a, next) →
    least ≤ other.tokens.length → input.Along shift back stop other →
      (next.tokens = [] → follow (kindBehind back stop)) →
        ∃ after, p.parse input = (.ok a, after) ∧ after.Along shift back stop next

/-- The parser fails at the end of an input. -/
def Needs (p : Parser α) : Prop :=
  ∀ input after a, input.current.kind = .endOfInput → p.parse input ≠ (.ok a, after)

/-! ## Sequences -/

theorem Widens.mono (h : Widens shift least follow p q)
    (hfollow : ∀ kind, follow' kind → follow kind) : Widens shift least follow' p q :=
  ⟨h.advances, fun hparse hle halong hkind => h.along hparse hle halong fun hnil =>
    hfollow _ (hkind hnil)⟩

theorem Widens.of_le {more : Nat} (h : Widens shift least follow p q) (hle : least ≤ more) :
    Widens shift more follow p q :=
  ⟨h.advances, fun hparse hmore halong hkind => h.along hparse (hle.trans hmore) halong hkind⟩

theorem widens_pure (a : α) : Widens shift least follow (pure a) (pure a) := by
  refine ⟨advances_pure a, fun {input other next back stop b} hparse _ halong _ => ?_⟩
  obtain ⟨rfl, rfl⟩ : a = b ∧ other = next := by simpa [parse_pure] using hparse
  exact ⟨input, rfl, halong⟩

theorem Widens.bind (hp : Widens shift least follow p q)
    (hf : ∀ a, Widens shift 0 follow (f a) (g a)) :
    Widens shift least follow (p >>= f) (q >>= g) := by
  refine ⟨hp.advances.bind fun a => (hf a).advances, ?_⟩
  intro input other next back stop b hparse hle halong hkind
  obtain ⟨a, middle, hq, hg⟩ := exists_of_parse_bind hparse
  have hlength := ((hf a).advances _ _ _ hg).length_le
  have hmiddle : middle.tokens = [] → follow (kindBehind back stop) := fun hnil =>
    hkind (List.length_eq_zero_iff.mp (by simpa [hnil] using hlength))
  obtain ⟨between, hp', hbetween⟩ := hp.along hq hle halong hmiddle
  obtain ⟨after, hf', hafter⟩ := (hf a).along hg (Nat.zero_le _) hbetween hkind
  exact ⟨after, by rw [parse_bind, hp']; exact hf', hafter⟩

/-- If the second parser reads something, the first one never meets the end. -/
theorem Widens.bind_of_needs (hp : Widens shift least follow' p q)
    (hf : ∀ a, Widens shift 0 follow (f a) (g a)) (hneeds : ∀ a, Needs (g a)) :
    Widens shift least follow (p >>= f) (q >>= g) := by
  refine ⟨hp.advances.bind fun a => (hf a).advances, ?_⟩
  intro input other next back stop b hparse hle halong hkind
  obtain ⟨a, middle, hq, hg⟩ := exists_of_parse_bind hparse
  -- At its end the second parser would fail, so what comes behind does not matter here.
  have hends : middle.tokens = [] → middle.current.kind = .endOfInput := by
    intro hnil
    rw [current_nil hnil, (hp.advances _ _ _ hq).stop]
    exact halong.ends
  obtain ⟨between, hp', hbetween⟩ := hp.along hq hle halong fun hnil =>
    absurd hg (hneeds a _ _ _ (hends hnil))
  obtain ⟨after, hf', hafter⟩ := (hf a).along hg (Nat.zero_le _) hbetween hkind
  exact ⟨after, by rw [parse_bind, hp']; exact hf', hafter⟩

theorem Widens.map (h : Widens shift least follow p q) (u : α → β) :
    Widens shift least follow (p >>= fun a => pure (u a)) (q >>= fun a => pure (u a)) :=
  h.bind fun a => widens_pure (u a)

theorem widens_of_ne_ok (h : ∀ input after a, q.parse input ≠ (.ok a, after)) :
    Widens shift least follow p q := by
  refine ⟨fun input after a hparse => absurd hparse (h input after a), ?_⟩
  intro input other next back stop a hparse
  exact absurd hparse (h other next a)

theorem widens_unexpected (expected : String) : Widens shift least follow p (unexpected expected) :=
  widens_of_ne_ok (parse_unexpected_ne_ok expected)

theorem widens_fail (span : Span) (problem : ParseProblem) :
    Widens shift least follow p (fail span problem) :=
  widens_of_ne_ok fun input after a => by simp [parse_fail]

theorem Needs.bind (h : Needs p) : Needs (p >>= f) := by
  intro input after b hend hparse
  obtain ⟨a, middle, hfirst, -⟩ := exists_of_parse_bind hparse
  exact h input middle a hend hfirst

theorem needs_of_current {f : Token → Parser β}
    (h : ∀ token, token.kind = .endOfInput → ∀ input after b,
      (f token).parse input ≠ (.ok b, after)) : Needs (current >>= f) := by
  intro input after b hend hparse
  rw [parse_bind, parse_current] at hparse
  exact h input.current hend input after b hparse

theorem Widens.or_end (h : Widens shift 1 follow p q)
    (hend : ∀ {input other next back stop a}, q.parse other = (.ok a, next) → other.tokens = [] →
      input.Along shift back stop other → follow (kindBehind back stop) →
        ∃ after, p.parse input = (.ok a, after) ∧ after.Along shift back stop next) :
    Widens shift 0 follow p q := by
  refine ⟨h.advances, ?_⟩
  intro input other next back stop a hparse _ halong hkind
  cases htokens : other.tokens with
  | nil =>
      have hlength := (h.advances _ _ _ hparse).length_le
      have hnext : next.tokens = [] :=
        List.length_eq_zero_iff.mp (by simpa [htokens] using hlength)
      exact hend hparse htokens halong (hkind hnext)
  | cons token tokens => exact h.along hparse (by simp [htokens]) halong hkind

theorem Widens.of_needs (h : Widens shift 1 follow p q) (hneeds : Needs q) :
    Widens shift 0 follow p q :=
  h.or_end fun hparse hnil halong _ =>
    absurd hparse (hneeds _ _ _ (halong.kind_current_nil hnil).2)

/-! ## Single tokens -/

theorem widens_current_bind {f g : Token → Parser β}
    (h : ∀ token, Widens shift 1 follow (f (token.shift shift)) (g token)) :
    Widens shift 1 follow (current >>= f) (current >>= g) := by
  constructor
  · intro input after b hparse
    rw [parse_bind, parse_current] at hparse
    exact (h _).advances _ _ _ hparse
  · intro input other next back stop b hparse hle halong hkind
    obtain ⟨token, tokens, htokens⟩ : ∃ token tokens, other.tokens = token :: tokens :=
      List.exists_cons_of_length_pos hle
    obtain ⟨hcurrent, hother⟩ := halong.current_cons htokens
    rw [parse_bind, parse_current, hother] at hparse
    rw [parse_bind, parse_current, hcurrent]
    exact (h token).along hparse hle halong hkind

theorem widens_of_current {f : Token → Parser β} (hsame : ∀ token, f (token.shift shift) = f token)
    (h : ∀ token, Widens shift 1 follow (f token) (f token)) :
    Widens shift 1 follow (current >>= f) (current >>= f) :=
  widens_current_bind fun token => (hsame token).symm ▸ h token

theorem widens_advance_bind {f g : Unit → Parser β} (h : Widens shift least follow (f ()) (g ())) :
    Widens shift (least + 1) follow (advance >>= f) (advance >>= g) := by
  constructor
  · intro input after b hparse
    rw [parse_bind, parse_advance] at hparse
    exact input.follows_advance.trans (h.advances _ _ _ hparse)
  · intro input other next back stop b hparse hle halong hkind
    obtain ⟨token, tokens, htokens⟩ : ∃ token tokens, other.tokens = token :: tokens :=
      List.exists_cons_of_length_pos ((Nat.succ_pos least).trans_le hle)
    have hadvance : other.advance.tokens = tokens := by simp [Input.advance, htokens]
    rw [parse_bind, parse_advance] at hparse ⊢
    refine h.along hparse ?_ (halong.advance_cons htokens) hkind
    rw [htokens, List.length_cons] at hle
    rw [hadvance]
    exact Nat.le_of_succ_le_succ hle

theorem widens_advance_map (u : Unit → β) :
    Widens shift 1 follow (advance >>= fun a => pure (u a)) (advance >>= fun a => pure (u a)) :=
  widens_advance_bind (widens_pure _)

theorem widens_advance : Widens shift 1 follow advance advance := by
  have hbind : Widens shift 1 follow (advance >>= pure) (advance >>= pure) :=
    widens_advance_bind (widens_pure ())
  rwa [bind_pure] at hbind

theorem widens_eat_one (test : TokenKind → Bool) : Widens shift 1 follow (eat test) (eat test) := by
  refine widens_of_current (fun _ => rfl) fun token => ?_
  split
  next => exact widens_advance_map _
  next => exact widens_pure _

theorem widens_eat {test : TokenKind → Bool} (h : test .endOfInput = false) :
    Widens shift 0 (test · = false) (eat test) (eat test) := by
  refine (widens_eat_one test).or_end ?_
  intro input other next back stop found hparse hnil halong hkind
  obtain ⟨hcurrent, hother⟩ := halong.kind_current_nil hnil
  rw [parse_eat, hother, h] at hparse
  obtain ⟨rfl, rfl⟩ : false = found ∧ other = next := by simpa using hparse
  exact ⟨input, by simp [parse_eat, hcurrent, hkind], halong⟩

theorem widens_eatKind {kind : TokenKind} (h : kind ≠ .endOfInput) :
    Widens shift 0 (· ≠ kind) (eatKind kind) (eatKind kind) :=
  Widens.mono (widens_eat (beq_false_of_ne h.symm)) fun _ hkind => beq_false_of_ne hkind

theorem widens_atKind {kind : TokenKind} (h : kind ≠ .endOfInput) :
    Widens shift 0 (· ≠ kind) (atKind kind) (atKind kind) := by
  refine Widens.or_end (widens_of_current (fun _ => rfl) fun token => widens_pure _) ?_
  intro input other next back stop found hparse hnil halong hkind
  obtain ⟨hcurrent, hother⟩ := halong.kind_current_nil hnil
  rw [parse_atKind, hother, beq_false_of_ne h.symm] at hparse
  obtain ⟨rfl, rfl⟩ : false = found ∧ other = next := by simpa using hparse
  exact ⟨input, by rw [parse_atKind, hcurrent, beq_false_of_ne hkind], halong⟩

def expect (kind : TokenKind) (expected : String) : Parser Unit := do
  unless ← eatKind kind do
    unexpected expected

theorem needs_expect {kind : TokenKind} (h : kind ≠ .endOfInput) (expected : String) :
    Needs (expect kind expected) := by
  intro input after a hend hparse
  obtain ⟨found, middle, heat, hrest⟩ := exists_of_parse_bind hparse
  rw [eatKind, parse_eat, hend, beq_false_of_ne h.symm] at heat
  obtain ⟨rfl, rfl⟩ : false = found ∧ input = middle := by simpa using heat
  exact parse_unexpected_ne_ok expected _ _ _ hrest

theorem widens_expect {kind : TokenKind} (h : kind ≠ .endOfInput) (expected : String) :
    Widens shift 0 follow (expect kind expected) (expect kind expected) := by
  refine Widens.of_needs ((widens_eat_one _).bind fun found => ?_) (needs_expect h expected)
  split
  next => exact widens_pure _
  next => exact widens_unexpected _

theorem widens_expectKind {kind : TokenKind} (h : kind ≠ .endOfInput) :
    Widens shift 0 follow (expectKind kind) (expectKind kind) :=
  widens_expect h kind.describe

theorem widens_expectKeyword (keyword : Keyword) :
    Widens shift 0 follow (expectKeyword keyword) (expectKeyword keyword) :=
  widens_expect (by simp) keyword.spelling

theorem needs_name : Needs name := by
  refine needs_of_current fun token hkind => ?_
  simp only [nameOf?, hkind]
  exact parse_unexpected_ne_ok _

theorem widens_name : Widens shift 0 follow name name := by
  refine Widens.of_needs (widens_of_current (fun _ => rfl) fun token => ?_) needs_name
  split
  next => exact widens_advance_map _
  next => exact widens_unexpected _

theorem widens_string : Widens shift 0 follow string string := by
  refine Widens.of_needs (widens_of_current (fun _ => rfl) fun token => ?_)
    (needs_of_current fun token hkind => ?_)
  · split
    next => exact widens_advance_map _
    next => exact widens_unexpected _
  · simp only [hkind]
    exact parse_unexpected_ne_ok _

theorem widens_nameOrString : Widens shift 0 follow nameOrString nameOrString := by
  refine Widens.of_needs (widens_of_current (fun _ => rfl) fun token => ?_) ?_
  · split
    next => exact widens_string.of_le (Nat.zero_le 1)
    next => exact widens_name.of_le (Nat.zero_le 1)
  · intro input after a hend hparse
    rw [nameOrString, parse_bind, parse_current] at hparse
    dsimp only at hparse
    rw [hend] at hparse
    exact needs_name input after a hend hparse

theorem needs_number : Needs number := by
  refine needs_of_current fun token hkind => ?_
  simp only [hkind]
  exact parse_unexpected_ne_ok _

theorem widens_number : Widens shift 0 follow number number := by
  refine Widens.of_needs (widens_current_bind fun token => ?_) needs_number
  dsimp only [Token.shift]
  split
  next =>
    split
    next => exact widens_advance_map _
    next => exact widens_fail _ _
  next => exact widens_unexpected _

/-! ## Groups -/

/-- What closes a group also closes it when more tokens follow. -/
theorem closeGroup?_shift_append {depth last : Nat} {tokens rest : List Token}
    (h : closeGroup? depth tokens = some (last, rest)) (back : List Token) :
    closeGroup? depth (tokens.map (Token.shift shift) ++ back)
      = some (shift + last, rest.map (Token.shift shift) ++ back) := by
  induction tokens generalizing depth with
  | nil => simp [closeGroup?] at h
  | cons token tokens ih =>
      have hkind : (token.shift shift).kind = token.kind := rfl
      rw [List.map_cons, List.cons_append]
      by_cases hleft : token.kind = .leftParen
      · rw [closeGroup?_left _ _ hleft] at h
        rw [closeGroup?_left _ _ (hkind.trans hleft)]
        exact ih h
      · by_cases hright : token.kind = .rightParen
        · cases depth with
          | zero =>
              rw [closeGroup?_right_zero _ hright, Option.some.injEq, Prod.mk.injEq] at h
              obtain ⟨rfl, rfl⟩ := h
              exact closeGroup?_right_zero _ (hkind.trans hright)
          | succ depth =>
              rw [closeGroup?_right_succ _ _ hright] at h
              rw [closeGroup?_right_succ _ _ (hkind.trans hright)]
              exact ih h
        · rw [closeGroup?_other _ _ hleft hright] at h
          rw [closeGroup?_other _ _ (hkind ▸ hleft) (hkind ▸ hright)]
          exact ih h

theorem parse_group_eq_ok_iff {input after : Input} {text : String} :
    group.parse input = (.ok text, after) ↔
      input.current.kind = .leftParen
        ∧ (groupFrom input.current.span.start).parse input.advance = (.ok text, after) := by
  have hgroup : group = current >>= fun token =>
      expectKind .leftParen >>= fun _ => groupFrom token.span.start := rfl
  rw [hgroup, parse_bind, parse_current]
  constructor
  · intro hparse
    obtain ⟨_, middle, hopen, hrest⟩ := exists_of_parse_bind hparse
    obtain ⟨hkind, rfl⟩ := of_parse_expectKind hopen
    exact ⟨hkind, hrest⟩
  · rintro ⟨hkind, hrest⟩
    simpa [parse_bind, expectKind, eatKind, parse_eat, hkind, parse_pure] using hrest

/-- A group ends with the same token in both inputs. -/
theorem along_group {input other next : Input} {back : List Token} {stop : Token} {text : String}
    (hparse : group.parse other = (.ok text, next)) (h : input.Along shift back stop other) :
    ∃ after, group.parse input = (.ok text, after) ∧ after.Along shift back stop next
      ∧ ∃ last ∈ other.tokens, next.lastStop = last.span.stop
        ∧ after.lastStop = shift + last.span.stop := by
  obtain ⟨hkind, hrest⟩ := parse_group_eq_ok_iff.mp hparse
  obtain ⟨first, tokens, htokens⟩ := h.exists_cons (by simp [hkind])
  obtain ⟨hcurrent, hother⟩ := h.current_cons htokens
  have hadvance := h.advance_cons htokens
  obtain ⟨_, rest, hclose, rfl, rfl⟩ := parse_groupFrom_eq_ok_iff.mp hrest
  obtain ⟨front, last, hfront, rfl⟩ := exists_front_of_closeGroup? hclose
  have hmem : last ∈ other.tokens := other.follows_advance.mem (by simp [hfront])
  have htext := h.text first (htokens ▸ List.mem_cons_self) last hmem
  refine ⟨{ input.advance with
      tokens := rest.map (Token.shift shift) ++ back
      lastStop := shift + last.span.stop },
    parse_group_eq_ok_iff.mpr ⟨?_, parse_groupFrom_eq_ok_iff.mpr ⟨_, _, ?_, ?_, rfl⟩⟩,
    hadvance.rest (fun token hmem => by simp [hfront, hmem]) _ _, last, hmem, rfl, rfl⟩
  · rw [hcurrent]
    exact hother ▸ hkind
  · rw [hadvance.tokens]
    exact closeGroup?_shift_append hclose back
  · rw [hcurrent, hother, input.follows_advance.source, other.follows_advance.source]
    exact htext.symm

theorem advances_group : Advances group :=
  Parallel.advances (local_group : Local 0 group)

theorem widens_group : Widens shift least follow group group := by
  refine ⟨advances_group, ?_⟩
  intro input other next back stop text hparse _ halong _
  obtain ⟨after, hgroup, hafter, -⟩ := along_group hparse halong
  exact ⟨after, hgroup, hafter⟩

/-! ## Repetition -/

theorem Needs.repeatWhile {step : Parser (α × Bool)} (h : Needs step) :
    Needs (repeatWhile step) := by
  intro input after as hend hparse
  change repeatFrom step input = _ at hparse
  rw [repeatFrom] at hparse
  split at hparse
  next => simp at hparse
  next hstep => exact h _ _ _ hend hstep
  next hstep => exact h _ _ _ hend hstep

theorem widens_repeatWhile {step : Parser (α × Bool)} (h : Widens shift 0 follow step step) :
    Widens shift 0 follow (repeatWhile step) (repeatWhile step) := by
  refine ⟨advances_repeatWhile h.advances, ?_⟩
  intro input other next back stop as hparse _ halong hkind
  have hlength : ∀ {input other : Input}, input.Along shift back stop other →
      input.tokens.length = other.tokens.length + back.length := by
    intro input other halong
    simp [halong.tokens]
  change repeatFrom step other = _ at hparse
  fun_induction repeatFrom step other generalizing as input with
  | case1 => simp at hparse
  | case2 other a middle hstep =>
      obtain ⟨rfl, rfl⟩ : [a] = as ∧ middle = next := by simpa using hparse
      obtain ⟨after, hinput, hafter⟩ := h.along hstep (Nat.zero_le _) halong hkind
      exact ⟨after, parse_repeatWhile_false hinput, hafter⟩
  | case3 other a middle hstep hshorter rest last hrest ih =>
      cases rest with
      | error => simp [Except.map] at hparse
      | ok rest =>
          obtain ⟨rfl, rfl⟩ : a :: rest = as ∧ last = next := by
            simpa [Except.map] using hparse
          have hle := (advances_repeatWhile h.advances _ _ _ hrest).length_le
          obtain ⟨between, hinput, hbetween⟩ := h.along hstep (Nat.zero_le _) halong fun hnil =>
            hkind (List.length_eq_zero_iff.mp (by simpa [hnil] using hle))
          obtain ⟨after, hothers, hafter⟩ := ih (Nat.zero_le _) hbetween hrest
          refine ⟨after, parse_repeatWhile_true hinput ?_ hothers, hafter⟩
          rw [hlength halong, hlength hbetween]
          omega
  | case4 other a middle hstep hshorter =>
      -- The loop stops where nothing is taken, and then nothing is taken of either input.
      obtain ⟨rfl, rfl⟩ : [a] = as ∧ middle = next := by simpa using hparse
      obtain ⟨after, hinput, hafter⟩ := h.along hstep (Nat.zero_le _) halong hkind
      refine ⟨after, parse_repeatWhile_stuck hinput ?_, hafter⟩
      rw [hlength halong, hlength hafter]
      omega

theorem widens_commaSeparated {item : Parser α} (h : Widens shift 0 (· ≠ .comma) item item) :
    Widens shift 0 (· ≠ .comma) (commaSeparated item) (commaSeparated item) :=
  widens_repeatWhile (h.bind fun _ => (widens_eatKind (by simp)).map _)

end Parser

end SchemaDelta.Sql
