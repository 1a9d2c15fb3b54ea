import SchemaDelta.Proofs.Parsing.Local

/-!
# How far statements extend

A statement extends from its first token to its last one, and the statement that creates a
table to the end of its definitions.  From the tokens up to there alone, the same table is
read.
-/

namespace SchemaDelta.Sql

def Statement.span : Statement → Span
  | .createTable table => table.span
  | .other span => span

/-- The table that is created further on in a source. -/
def CreateTable.shift (shift : Nat) (table : CreateTable) : CreateTable :=
  { table with
    definitions := table.definitions.map (Definition.shift shift)
    span := table.span.shift shift }

namespace Parser

variable {α β : Type} {shift start start' : Nat} {p q : Parser Statement}

/-- A statement that is read from `start` on ends where the tokens of `middle` begin.  If it
creates a table, the second parser reads this table from `start'` on when there are no more
tokens. -/
structure Extends (shift start : Nat) (q : Parser Statement) (input : Input)
    (statement : Statement) (after middle : Input) : Prop where
  nothing : after.tokens = []
  follows : input.Follows middle
  span : statement.span = ⟨start, middle.lastStop⟩
  table : ∀ {table}, statement = .createTable table →
    middle.tokens.length < input.tokens.length ∧
      ∀ {other}, input.Beside shift middle.tokens other →
        ∃ table' next, q.parse other = (.ok (.createTable table'), next) ∧ next.tokens = []
          ∧ table = table'.shift shift

def Located (shift start : Nat) (p q : Parser Statement) : Prop :=
  ∀ {input after statement}, Segment.isTerminator input.stop = true →
    p.parse input = (.ok statement, after) →
      ∃ middle, Extends shift start q input statement after middle

theorem Located.bind {p : Parser α} {f g : α → Parser Statement} (hp : Local shift p)
    (hf : ∀ a, Located shift start (f a) (g a)) :
    Located shift start (p >>= f) (p >>= g) := by
  intro input after statement hstop hparse
  obtain ⟨a, next, hfirst, hrest⟩ := exists_of_parse_bind hparse
  have hfollows := hp.advances _ _ _ hfirst
  obtain ⟨middle, hextends⟩ := hf a (hfollows.stop ▸ hstop) hrest
  have hle := hfollows.length_le
  refine ⟨middle, hextends.nothing, hfollows.trans hextends.follows, hextends.span,
    fun htable => ?_⟩
  obtain ⟨hshorter, hother⟩ := hextends.table htable
  refine ⟨hshorter.trans_le hle, fun {other} hbeside => ?_⟩
  obtain ⟨_, last, hp', rfl, hlast⟩ := hp.beside hfirst hbeside hshorter
  obtain ⟨table', next', hg, hrest⟩ := hother hlast
  refine ⟨table', next', ?_, hrest⟩
  rw [parse_bind, hp']
  exact hg

theorem parse_skipRest (input : Input) :
    ∃ after : Input, skipRest.parse input = (.ok (), after) ∧ input.Follows after
      ∧ after.tokens = [] := by
  rw [skipRest, parse_modify]
  cases hlast : input.tokens.getLast? with
  | none =>
      have hnil := List.getLast?_eq_none_iff.mp hlast
      exact ⟨input, rfl, .refl input, hnil⟩
  | some token =>
      refine ⟨{ input with tokens := [], lastStop := token.span.stop }, rfl, ?_, rfl⟩
      exact ⟨rfl, rfl, input.tokens, by simp, by simp [hlast]⟩

theorem parse_otherStatement (start : Nat) (input : Input) :
    ∃ last, (otherStatement start).parse input = (.ok (.other ⟨start, last.lastStop⟩), last)
      ∧ input.Follows last ∧ last.tokens = [] := by
  obtain ⟨last, hskip, hfollows, hnil⟩ := parse_skipRest input
  refine ⟨last, ?_, hfollows, hnil⟩
  rw [otherStatement, parse_bind, hskip]
  rfl

theorem located_otherStatement (start : Nat) : Located shift start (otherStatement start) q := by
  intro input after statement hstop hparse
  obtain ⟨last, hother, hfollows, hnil⟩ := parse_otherStatement start input
  rw [hother, Prod.mk.injEq, Except.ok.injEq] at hparse
  obtain ⟨rfl, rfl⟩ := hparse
  exact ⟨last, hnil, hfollows, rfl, by simp⟩

/-- A look at the current token, which may be one to fail at. -/
theorem Located.guard (test : TokenKind → Prop) [DecidablePred test]
    {fails fails' : Token → Parser Statement}
    (hfails : ∀ token input after a, (fails token).parse input ≠ (.ok a, after))
    (h : Located shift start p q) :
    Located shift start
      (current >>= fun token => if test token.kind then fails token else p)
      (current >>= fun token => if test token.kind then fails' token else q) := by
  intro input after statement hstop hparse
  rw [parse_bind, parse_current] at hparse
  dsimp only at hparse
  split at hparse
  next => exact absurd hparse (hfails _ _ _ _)
  next htest =>
    obtain ⟨middle, hextends⟩ := h hstop hparse
    refine ⟨middle, hextends.nothing, hextends.follows, hextends.span, fun htable => ?_⟩
    obtain ⟨hshorter, hother⟩ := hextends.table htable
    refine ⟨hshorter, fun {other} hbeside => ?_⟩
    have hcurrent : input.current.kind = other.current.kind := by
      rw [hbeside.current hshorter]
      rfl
    rw [hcurrent] at htest
    rw [parse_bind, parse_current]
    dsimp only
    rw [if_neg htest]
    exact hother hbeside

/-- What a table is read as through the end of its definitions. -/
theorem located_definitions (table : List Definition → Span → CreateTable)
    (htable : ∀ list span, (table list span).span = span)
    (hshift : ∀ list span, table (list.map (Definition.shift shift)) (span.shift shift)
      = (table list span).shift shift) :
    Located shift (shift + start)
      (definitions >>= fun list => get >>= fun input => skipRest >>= fun _ =>
        pure (.createTable (table list ⟨shift + start, input.lastStop⟩)))
      (definitions >>= fun list => get >>= fun input => skipRest >>= fun _ =>
        pure (.createTable (table list ⟨start, input.lastStop⟩))) := by
  have hclosing : Closing shift definitions definitions fun list (list' : List Definition) =>
      list = list'.map (Definition.shift shift) := closing_definitions
  have hrun : ∀ {input last} (u : Input → Statement), skipRest.parse input = (.ok (), last) →
      (get >>= fun input => skipRest >>= fun _ => pure (u input) : Parser Statement).parse input
        = (.ok (u input), last) := by
    intro input last u hskip
    rw [parse_bind, parse_get]
    dsimp only
    rw [parse_bind, hskip]
    rfl
  intro input after statement hstop hparse
  obtain ⟨list, middle, hlist, hrest⟩ := exists_of_parse_bind hparse
  obtain ⟨last, hskip, -, hnil⟩ := parse_skipRest middle
  rw [hrun _ hskip, Prod.mk.injEq, Except.ok.injEq] at hrest
  obtain ⟨rfl, rfl⟩ := hrest
  have hshorter := hclosing.consumes hstop hlist
  refine ⟨middle, hnil, hclosing.parallel.advances _ _ _ hlist, htable _ _, ?_⟩
  rintro _ ⟨⟩
  refine ⟨hshorter, fun {other} hbeside => ?_⟩
  obtain ⟨list', next, hother, rfl, hnext⟩ := hclosing.parallel.beside hlist hbeside le_rfl
  obtain ⟨last', hskip', -, hnil'⟩ := parse_skipRest next
  refine ⟨table list' ⟨start, next.lastStop⟩, last', ?_, hnil', ?_⟩
  · rw [parse_bind, hother]
    exact hrun _ hskip'
  · rw [← hshift, hnext.lastStop]
    rfl

theorem local_ifNotExists : Local shift ifNotExists := by
  refine (local_eatKind _).bind fun found => ?_
  split
  next => exact (local_expectKeyword _).bind fun _ => (local_expectKeyword _).map _
  next => exact parallel_pure rfl

theorem located_createTable (database : Option String) (start : Nat) (temporary : Bool) :
    Located shift (shift + start) (createTable database (shift + start) temporary)
      (createTable database start temporary) := by
  refine Located.bind local_ifNotExists fun ifNotExists =>
    Located.bind local_qualifiedName fun name => ?_
  dsimp only
  split
  next =>
    refine Located.guard (fun kind => kind = .keyword .LIKE ∨ kind = .keyword .AS)
      (fun _ _ _ _ => by simp [parse_bind, parse_fail])
      (Located.bind (local_expectKind _) fun _ => ?_)
    exact located_definitions (fun definitions span =>
      { name := name.2, temporary, ifNotExists, definitions, span }) (fun _ _ => rfl) fun _ _ => rfl
  next => exact located_otherStatement _

/-- The statement behind `CREATE`, which begins at `start`. -/
def creation (database : Option String) (start : Nat) : Parser Statement := do
  let temporary ← eatKeyword .TEMPORARY
  if ← eatKeyword .TABLE then
    createTable database start temporary
  else
    otherStatement start

theorem located_creation (database : Option String) (start : Nat) :
    Located shift (shift + start) (creation database (shift + start))
      (creation database start) := by
  refine Located.bind (local_eatKind _) fun temporary => Located.bind (local_eatKind _)
    fun table => ?_
  split
  next => exact located_createTable database start temporary
  next => exact located_otherStatement _

theorem parse_statement (database : Option String) (input : Input) :
    (statement database).parse input =
      if input.current.kind = .keyword .CREATE then
        (creation database input.current.span.start).parse input.advance
      else (otherStatement input.current.span.start).parse input := by
  rw [statement, parse_bind, parse_current]
  dsimp only
  rw [parse_bind, eatKeyword, eatKind, parse_eat]
  by_cases hkind : input.current.kind = .keyword .CREATE
  · simp only [hkind, beq_self_eq_true, if_true]
    rfl
  · simp [hkind]

/-- A statement begins with its first token, and a table is read by itself if its text begins
with this token. -/
theorem exists_of_parse_statement {database : Option String} {input after : Input}
    {statement : Statement} (hstop : Segment.isTerminator input.stop = true)
    (h : (Parser.statement database).parse input = (.ok statement, after)) :
    after.tokens = [] ∧ ∃ middle, input.Follows middle
      ∧ (input.tokens ≠ [] → middle.tokens.length < input.tokens.length)
      ∧ statement.span = ⟨input.current.span.start, middle.lastStop⟩
      ∧ ∀ {table}, statement = .createTable table → ∀ other : Input,
        input.current = other.current.shift input.current.span.start →
          input.advance.Beside input.current.span.start middle.tokens other.advance →
            ∃ table' next,
              (Parser.statement database).parse other = (.ok (.createTable table'), next)
                ∧ next.tokens = [] ∧ table = table'.shift input.current.span.start := by
  rw [parse_statement] at h
  split at h
  next hcreate =>
    have hfirst := input.follows_advance
    have hlength : input.advance.tokens.length < input.tokens.length := by
      obtain ⟨source, tokens, stop, last⟩ := input
      cases tokens with
      | nil =>
          have hkind : stop.kind = .keyword .CREATE := hcreate
          simp [Segment.isTerminator, hkind] at hstop
      | cons token tokens => exact Nat.lt_succ_self _
    have hlocated : Located input.current.span.start (input.current.span.start + 0)
        (creation database (input.current.span.start + 0)) (creation database 0) :=
      located_creation database 0
    obtain ⟨middle, hextends⟩ := hlocated (hfirst.stop ▸ hstop) h
    refine ⟨hextends.nothing, middle, hfirst.trans hextends.follows,
      fun _ => hextends.follows.length_le.trans_lt hlength, hextends.span, ?_⟩
    intro table htable other hcurrent hbeside
    obtain ⟨table', next, hother, hrest⟩ := (hextends.table htable).2 hbeside
    refine ⟨table', next, ?_, hrest⟩
    have hkind : other.current.kind = .keyword .CREATE := by
      rw [hcurrent] at hcreate
      exact hcreate
    have hstart : other.current.span.start = 0 := by
      have hspan := congrArg (·.span.start) hcurrent
      simp only [Token.shift, Span.shift] at hspan
      omega
    rw [parse_statement, if_pos hkind, hstart]
    exact hother
  next =>
    obtain ⟨last, hother, hfollows, hnil⟩ := parse_otherStatement input.current.span.start input
    rw [hother, Prod.mk.injEq, Except.ok.injEq] at h
    obtain ⟨rfl, rfl⟩ := h
    refine ⟨hnil, last, hfollows, fun hne => ?_, rfl, by simp⟩
    rw [hnil]
    exact List.length_pos_iff.mpr hne

end Parser

end SchemaDelta.Sql
