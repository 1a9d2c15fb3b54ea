import SchemaDelta.Proofs.Parsing.Run

/-!
# Parsers that accept pieces

A parser accepts pieces as a value when it reads exactly them, gives that value,
and leaves what stands behind them.  Since parsers look one token ahead, they do
so in front of tokens of certain kinds only.
-/

namespace SchemaDelta.Sql

/-- The pieces stand in the source at the offset. -/
def StandsAt (source : List Char) (offset : Nat) (pieces : List Piece) : Prop :=
  ∃ front back, source = front ++ spelling pieces ++ back ∧ offset = Text.byteLength front

namespace StandsAt

variable {source : List Char} {offset : Nat} {ps qs : List Piece}

theorem left (h : StandsAt source offset (ps ++ qs)) : StandsAt source offset ps := by
  obtain ⟨front, back, rfl, rfl⟩ := h
  exact ⟨front, spelling qs ++ back, by simp, rfl⟩

theorem right (h : StandsAt source offset (ps ++ qs)) :
    StandsAt source (offset + Text.byteLength (spelling ps)) qs := by
  obtain ⟨front, back, rfl, rfl⟩ := h
  exact ⟨front ++ spelling ps, back, by simp, by simp⟩

end StandsAt

/-- The kind of the first piece, or else of what follows the pieces. -/
def firstKind (pieces : List Piece) (follower : TokenKind) : TokenKind :=
  (pieces.head?.map (·.kind)).getD follower

@[simp] theorem firstKind_nil (follower : TokenKind) : firstKind [] follower = follower := rfl

@[simp] theorem firstKind_cons (piece : Piece) (pieces : List Piece) (follower : TokenKind) :
    firstKind (piece :: pieces) follower = piece.kind := rfl

theorem current_tokensAt (input : Input) (offset : Nat) (pieces : List Piece) :
    (Input.current { input with tokens := tokensAt offset pieces ++ input.tokens }).kind
      = firstKind pieces input.current.kind := by
  cases pieces <;> rfl

namespace Parser

/-- The condition on what follows of a parser that does not look ahead. -/
def anything (_ : TokenKind) : Prop :=
  True

variable {α β : Type} {p : Parser α} {f : α → Parser β} {ps qs : List Piece} {piece : Piece}
  {a : α} {b : β} {Q : α → Prop} {R : β → Prop} {follow follow' : TokenKind → Prop}

/-- In front of a token that `follow` admits, the parser reads the pieces and gives
a value with the property. -/
def Reads (p : Parser α) (pieces : List Piece) (Q : α → Prop) (follow : TokenKind → Prop) :
    Prop :=
  ∀ (input : Input) (offset : Nat), StandsAt input.source offset pieces →
    follow input.current.kind →
      ∃ a last, Q a
        ∧ p.parse { input with tokens := tokensAt offset pieces ++ input.tokens }
          = (.ok a, { input with lastStop := last })

/-- The parser reads the pieces as the value. -/
abbrev Accepts (p : Parser α) (pieces : List Piece) (a : α) (follow : TokenKind → Prop) : Prop :=
  Reads p pieces (· = a) follow

theorem accepts_of_parse
    (h : ∀ (input : Input) (offset : Nat), StandsAt input.source offset ps →
      follow input.current.kind →
        ∃ last, p.parse { input with tokens := tokensAt offset ps ++ input.tokens }
          = (.ok a, { input with lastStop := last })) : Accepts p ps a follow := by
  intro input offset hstands hkind
  obtain ⟨last, hlast⟩ := h input offset hstands hkind
  exact ⟨a, last, rfl, hlast⟩

theorem Reads.mono (h : Reads p ps Q follow) (hfollow : ∀ kind, follow' kind → follow kind) :
    Reads p ps Q follow' :=
  fun input offset hstands hkind => h input offset hstands (hfollow _ hkind)

theorem Reads.imp {Q' : α → Prop} (h : Reads p ps Q follow) (hQ : ∀ a, Q a → Q' a) :
    Reads p ps Q' follow := by
  intro input offset hstands hkind
  obtain ⟨a, last, ha, hlast⟩ := h input offset hstands hkind
  exact ⟨a, last, hQ a ha, hlast⟩

theorem reads_pure (h : Q a) : Reads (pure a) [] Q follow :=
  fun input _ _ _ => ⟨a, input.lastStop, h, rfl⟩

theorem Reads.bind (hp : Reads p ps Q follow) (hf : ∀ a, Q a → Reads (f a) qs R follow')
    (hfollow : ∀ kind, follow' kind → follow (firstKind qs kind)) :
    Reads (p >>= f) (ps ++ qs) R follow' := by
  intro input offset hstands hkind
  obtain ⟨a, last, ha, hlast⟩ := hp
    { input with
      tokens := tokensAt (offset + Text.byteLength (spelling ps)) qs ++ input.tokens }
    offset hstands.left (by rw [current_tokensAt]; exact hfollow _ hkind)
  obtain ⟨b, last', hb, hlast'⟩ :=
    hf a ha { input with lastStop := last } _ hstands.right hkind
  refine ⟨b, last', hb, ?_⟩
  rw [tokensAt_append, List.append_assoc, parse_bind, hlast]
  exact hlast'

/-! ## A parser that accepts goes first -/

theorem Accepts.bind (hp : Accepts p ps a follow) (hf : Reads (f a) qs R follow')
    (hfollow : ∀ kind, follow' kind → follow (firstKind qs kind)) :
    Reads (p >>= f) (ps ++ qs) R follow' := by
  refine Reads.bind hp (fun _ ha => ?_) hfollow
  rw [ha]
  exact hf

/-- The first parser only looks. -/
theorem Accepts.peek (hp : Accepts p [] a follow) (hf : Reads (f a) qs R follow')
    (hfollow : ∀ kind, follow' kind → follow (firstKind qs kind)) :
    Reads (p >>= f) qs R follow' :=
  Accepts.bind hp hf hfollow

/-- The first parser does not look ahead. -/
theorem Accepts.andThen (hp : Accepts p ps a anything) (hf : Reads (f a) qs R follow') :
    Reads (p >>= f) (ps ++ qs) R follow' :=
  Accepts.bind hp hf fun _ _ => trivial

/-- The first parser reads one piece. -/
theorem Accepts.cons (hp : Accepts p [piece] a anything) (hf : Reads (f a) qs R follow') :
    Reads (p >>= f) (piece :: qs) R follow' :=
  Accepts.andThen hp hf

/-- The second parser reads nothing. -/
theorem Accepts.last (hp : Accepts p ps a follow) (hf : Reads (f a) [] R follow')
    (hfollow : ∀ kind, follow' kind → follow kind) : Reads (p >>= f) ps R follow' := by
  have h := Accepts.bind hp hf hfollow
  rwa [List.append_nil] at h

/-- What is made of the value does not matter to the input. -/
theorem Accepts.map (g : α → β) (hp : Accepts p ps a follow) :
    Accepts (p >>= fun a => pure (g a)) ps (g a) follow :=
  Accepts.last hp (reads_pure rfl) fun _ hkind => hkind

theorem Reads.map (g : α → β) (hp : Reads p ps Q follow) (hR : ∀ a, Q a → R (g a)) :
    Reads (p >>= fun a => pure (g a)) ps R follow := by
  have h := hp.bind (fun a ha => reads_pure (hR a ha)) fun _ hkind => hkind
  rwa [List.append_nil] at h

/-! ## Single tokens -/

theorem reads_current_bind {f : Token → Parser β}
    (h : ∀ offset, Reads (f (piece.token offset)) (piece :: qs) R follow) :
    Reads (current >>= f) (piece :: qs) R follow := by
  intro input offset hstands hkind
  rw [parse_bind, parse_current]
  exact h offset input offset hstands hkind

theorem reads_get_bind {f : Input → Parser β} (h : ∀ input, Reads (f input) qs R follow) :
    Reads (get >>= f) qs R follow := by
  intro input offset hstands hkind
  rw [parse_bind, parse_get]
  exact h _ input offset hstands hkind

theorem accepts_advance (piece : Piece) : Accepts advance [piece] () anything :=
  accepts_of_parse fun _ _ _ _ => ⟨_, rfl⟩

theorem accepts_eat {test : TokenKind → Bool} (h : test piece.kind = true) :
    Accepts (eat test) [piece] true anything := by
  refine accepts_of_parse fun input offset _ _ => ⟨(piece.token offset).span.stop, ?_⟩
  simp [parse_eat, h]

theorem accepts_eat_nil {test : TokenKind → Bool} :
    Accepts (eat test) [] false (test · = false) := by
  refine accepts_of_parse fun input offset _ hkind => ⟨input.lastStop, ?_⟩
  simp [parse_eat, hkind]

theorem accepts_eatKind {kind : TokenKind} (h : piece.kind = kind) :
    Accepts (eatKind kind) [piece] true anything :=
  accepts_eat (by simp [h])

theorem accepts_eatKind_nil (kind : TokenKind) :
    Accepts (eatKind kind) [] false (· ≠ kind) :=
  accepts_eat_nil.mono fun _ hkind => by simpa using hkind

theorem accepts_atKind_nil (kind : TokenKind) :
    Accepts (atKind kind) [] false (· ≠ kind) := by
  refine accepts_of_parse fun input offset _ hkind => ⟨input.lastStop, ?_⟩
  simpa [parse_atKind] using hkind

theorem accepts_atKind_self (kind : TokenKind) :
    Accepts (atKind kind) [] true (· = kind) := by
  refine accepts_of_parse fun input offset _ hkind => ⟨input.lastStop, ?_⟩
  simp [parse_atKind, hkind]

theorem accepts_expectKind {kind : TokenKind} (h : piece.kind = kind) :
    Accepts (expectKind kind) [piece] () anything :=
  (accepts_eatKind h).cons (reads_pure rfl)

theorem accepts_expectKeyword {keyword : Keyword} (h : piece.kind = .keyword keyword) :
    Accepts (expectKeyword keyword) [piece] () anything :=
  (accepts_eatKind h).cons (reads_pure rfl)

theorem accepts_name {name : String} (h : piece.kind = .quoted name) :
    Accepts Parser.name [piece] name anything := by
  refine reads_current_bind fun offset => ?_
  simp only [nameOf?, Piece.kind_token, h]
  exact (accepts_advance piece).cons (reads_pure rfl)

theorem accepts_string {value : String} (h : piece.kind = .string value) :
    Accepts string [piece] value anything := by
  refine reads_current_bind fun offset => ?_
  simp only [Piece.kind_token, h]
  exact (accepts_advance piece).cons (reads_pure rfl)

theorem accepts_number {text : String} {n : Nat} (h : piece.kind = .number text)
    (hn : Text.word32? text.toList = some n) : Accepts number [piece] n anything := by
  refine reads_current_bind fun offset => ?_
  simp only [Piece.kind_token, h, hn]
  exact (accepts_advance piece).cons (reads_pure rfl)

/-! ## Repetition -/

theorem parse_repeatWhile_false {step : Parser (α × Bool)} {input after : Input}
    (h : step.parse input = (.ok (a, false), after)) :
    (repeatWhile step).parse input = (.ok [a], after) := by
  change repeatFrom step input = _
  change step.run input = _ at h
  rw [repeatFrom, h]

theorem parse_repeatWhile_true {step : Parser (α × Bool)} {input after last : Input}
    {as : List α} (h : step.parse input = (.ok (a, true), after))
    (hlength : after.tokens.length < input.tokens.length)
    (hrest : (repeatWhile step).parse after = (.ok as, last)) :
    (repeatWhile step).parse input = (.ok (a :: as), last) := by
  change repeatFrom step input = _
  change step.run input = _ at h
  change repeatFrom step after = _ at hrest
  rw [repeatFrom, h]
  simp [hlength, hrest, Except.map]

theorem Reads.repeatWhile_false {step : Parser (α × Bool)}
    (h : Reads step ps (fun result => Q result.1 ∧ result.2 = false) follow) :
    Reads (repeatWhile step) ps (fun as => ∃ a, as = [a] ∧ Q a) follow := by
  intro input offset hstands hkind
  obtain ⟨⟨a, _⟩, last, ⟨ha, rfl⟩, hlast⟩ := h input offset hstands hkind
  exact ⟨[a], last, ⟨a, rfl, ha⟩, parse_repeatWhile_false hlast⟩

theorem Reads.repeatWhile_true {step : Parser (α × Bool)} {S : List α → Prop}
    (h : Reads step ps (fun result => Q result.1 ∧ result.2 = true) follow) (hne : ps ≠ [])
    (hrest : Reads (repeatWhile step) qs S follow')
    (hfollow : ∀ kind, follow' kind → follow (firstKind qs kind)) :
    Reads (repeatWhile step) (ps ++ qs) (fun as => ∃ a rest, as = a :: rest ∧ Q a ∧ S rest)
      follow' := by
  intro input offset hstands hkind
  obtain ⟨⟨a, _⟩, last, ⟨ha, rfl⟩, hlast⟩ := h
    { input with
      tokens := tokensAt (offset + Text.byteLength (spelling ps)) qs ++ input.tokens }
    offset hstands.left (by rw [current_tokensAt]; exact hfollow _ hkind)
  obtain ⟨as, last', has, hlast'⟩ :=
    hrest { input with lastStop := last } _ hstands.right hkind
  refine ⟨a :: as, last', ⟨a, as, rfl, ha, has⟩, ?_⟩
  rw [tokensAt_append, List.append_assoc]
  refine parse_repeatWhile_true hlast ?_ hlast'
  cases ps with
  | nil => exact absurd rfl hne
  | cons piece ps =>
      simp only [tokensAt_cons, List.cons_append, List.length_cons, List.length_append]
      omega

theorem Accepts.repeatWhile_false {step : Parser (α × Bool)}
    (h : Accepts step ps (a, false) follow) : Accepts (repeatWhile step) ps [a] follow := by
  have hstep : Reads step ps (fun result => result.1 = a ∧ result.2 = false) follow :=
    h.imp (by simp_all)
  exact (Reads.repeatWhile_false (Q := (· = a)) hstep).imp (by simp_all)

theorem Accepts.repeatWhile_true {step : Parser (α × Bool)} {as : List α}
    (h : Accepts step ps (a, true) follow) (hne : ps ≠ [])
    (hrest : Accepts (repeatWhile step) qs as follow')
    (hfollow : ∀ kind, follow' kind → follow (firstKind qs kind)) :
    Accepts (repeatWhile step) (ps ++ qs) (a :: as) follow' := by
  have hstep : Reads step ps (fun result => result.1 = a ∧ result.2 = true) follow :=
    h.imp (by simp_all)
  exact (Reads.repeatWhile_true (Q := (· = a)) hstep hne hrest hfollow).imp (by simp_all)

/-- Items are read until one is missing; each of them ends in front of the next. -/
theorem accepts_repeatWhile_none {step : Parser (Option α × Bool)} {middle : TokenKind → Prop}
    {items : List (List Piece × α)}
    (hitem : ∀ entry ∈ items, Accepts step entry.1 (some entry.2, true) middle)
    (hfirst : ∀ entry ∈ items, entry.1 ≠ [] ∧ ∀ kind, middle (firstKind entry.1 kind))
    (hend : Accepts step [] (none, false) follow)
    (hfollow : ∀ kind, follow kind → middle kind) :
    Accepts (repeatWhile step) (items.flatMap (·.1))
      (items.map (fun entry => some entry.2) ++ [none]) follow := by
  induction items with
  | nil => exact Accepts.repeatWhile_false hend
  | cons entry items ih =>
      have hrest := ih (fun entry hmem => hitem entry (by simp [hmem]))
        fun entry hmem => hfirst entry (by simp [hmem])
      refine Accepts.repeatWhile_true (hitem entry (by simp)) (hfirst entry (by simp)).1 hrest ?_
      intro kind hkind
      cases items with
      | nil => exact hfollow kind hkind
      | cons next items =>
          obtain ⟨hne, hnext⟩ := hfirst next (by simp)
          change middle (firstKind (next.1 ++ items.flatMap (·.1)) kind)
          cases hpieces : next.1 with
          | nil => exact absurd hpieces hne
          | cons piece pieces => simpa [hpieces] using hnext kind

/-! ## Lists with commas -/

def commaPiece : Piece :=
  ⟨[], .comma, [',']⟩

/-- The pieces of items with commas in between. -/
def commaPieces : List (List Piece) → List Piece
  | [] => []
  | [item] => item
  | item :: next :: items => item ++ commaPiece :: commaPieces (next :: items)

theorem accepts_commaSeparated {item : Parser α} {items : List (List Piece × α)}
    (hne : items ≠ []) (hitem : ∀ entry ∈ items, Accepts item entry.1 entry.2 follow)
    (hcomma : follow .comma) :
    Accepts (commaSeparated item) (commaPieces (items.map (·.1))) (items.map (·.2))
      (fun kind => follow kind ∧ kind ≠ .comma) := by
  let step : Parser (α × Bool) := do
    let value ← item
    return (value, ← eatKind .comma)
  change Accepts (repeatWhile step) _ _ _
  induction items with
  | nil => exact absurd rfl hne
  | cons entry items ih =>
      have hentry := hitem entry (by simp)
      cases items with
      | nil =>
          have hlast : Accepts step entry.1 (entry.2, false)
              (fun kind => follow kind ∧ kind ≠ .comma) := by
            refine hentry.last ?_ fun kind hkind => hkind.1
            exact ((accepts_eatKind_nil .comma).map _).mono fun kind hkind => hkind.2
          exact hlast.repeatWhile_false
      | cons next items =>
          have hstep : Accepts step (entry.1 ++ [commaPiece]) (entry.2, true) anything := by
            refine hentry.bind ?_ fun kind _ => hcomma
            exact (accepts_eatKind rfl).map _
          have hrest := ih (by simp) fun entry hmem => hitem entry (by simp [hmem])
          have hall := hstep.repeatWhile_true (by simp) hrest fun _ _ => trivial
          rwa [List.append_assoc] at hall

end Parser

end SchemaDelta.Sql
