import SchemaDelta.Proofs.Parsing.Parallel
import SchemaDelta.Proofs.Parsing.Sound

/-!
# Definitions are read by themselves

What a definition of a table is read as depends on its own tokens and the one behind it
alone, up to the places of columns, which move with the source.
-/

namespace SchemaDelta.Sql

/-! ## Definitions further on in a source -/

def ColumnDef.shift (shift : Nat) (written : ColumnDef) : ColumnDef :=
  { written with span := written.span.shift shift }

/-- Of the definitions, only columns have a place. -/
def Definition.shift (shift : Nat) : Definition → Definition
  | .column written => .column (written.shift shift)
  | definition => definition

namespace Parser

variable {shift : Nat}

/-! ## Types and literals -/

theorem local_typeWord : Local shift typeWord := by
  refine local_of_current (fun _ _ => rfl) fun token => ?_
  split
  next => exact local_advance.map _
  next => exact local_advance.map _
  next => exact parallel_unexpected _ _

theorem local_typeName : Local shift typeName := by
  refine Local.bind local_typeWord fun first => parallel_of_current (S := fun _ => Eq)
    fun shift second => ?_
  dsimp only [Token.shift]
  split
  next =>
    split
    next => exact local_advance.map _
    next => exact parallel_pure rfl
  next => exact parallel_pure rfl

theorem local_typeArgument : Local shift typeArgument := by
  refine local_of_current (fun _ _ => rfl) fun token => ?_
  split
  next => exact local_number.map _
  next => exact local_string.map _
  next => exact parallel_unexpected _ _

theorem parallel_typeArgsEnd (start start' : Nat) (arguments : List (Nat ⊕ String)) :
    Parallel shift 1 (typeArgsEnd start arguments) (typeArgsEnd start' arguments) Eq := by
  refine (local_expectKind _).bind fun _ => ?_
  split
  next => exact parallel_pure rfl
  next =>
    refine parallel_of_ne_ok fun input after args => ?_
    rw [parse_bind, parse_get]
    simp [parse_fail]

theorem local_typeArgs : Local shift typeArgs := by
  refine parallel_of_current (S := fun _ => Eq) fun shift token =>
    (local_expectKind _).bind fun _ => (local_atKind _).bind fun empty => ?_
  split
  next => exact parallel_typeArgsEnd (shift + token.span.start) token.span.start []
  next =>
    exact (local_commaSeparated local_typeArgument).bind
      (parallel_typeArgsEnd (shift + token.span.start) token.span.start)

theorem local_dataType : Local shift dataType := by
  refine Local.bind local_typeName fun name => (local_atKind _).bind fun found => ?_
  split
  next => exact Local.map local_typeArgs _
  next => exact parallel_pure rfl

theorem local_signedNumber (sign : Char) : Local shift (signedNumber sign) := by
  refine local_advance.bind fun _ => local_of_current (fun _ _ => rfl) fun token => ?_
  split
  next => exact local_advance.map _
  next => exact parallel_unexpected _ _

/-- Reads on behind a word, in front of the token. -/
def wordLiteralFrom (word token : Token) : Parser Literal :=
  match word.text.toList.head?, token.kind with
  | some '_', .string value => do
      advance
      return .string value
  | _, _ => do
      if ← atKind .leftParen then
        let _ ← group
      let input ← get
      return .expression (Span.text ⟨word.span.start, input.lastStop⟩ input.source)

theorem wordLiteral_eq : wordLiteral = (do
    let word ← current
    advance
    let token ← current
    wordLiteralFrom word token) := rfl

theorem parallel_wordLiteralFrom (shift : Nat) (word token : Token) :
    Parallel shift 1 (wordLiteralFrom (word.shift shift) (token.shift shift))
      (wordLiteralFrom word token) Eq := by
  have htext : Parallel shift 1
      (get >>= fun input => pure (Literal.expression
        (Span.text ⟨shift + word.span.start, input.lastStop⟩ input.source)))
      (get >>= fun input => pure (Literal.expression
        (Span.text ⟨word.span.start, input.lastStop⟩ input.source))) Eq := by
    refine parallel_get fun {back input other} hbeside => ?_
    rw [hbeside.lastStop, hbeside.text _ hbeside.lastStop_le]
  unfold wordLiteralFrom
  dsimp only [Token.shift]
  split
  next => exact local_advance.map _
  next =>
    refine (local_atKind _).bind fun found => ?_
    split
    next => exact local_group.bind fun _ => htext
    next => exact htext

theorem local_wordLiteral : Local shift wordLiteral := by
  rw [wordLiteral_eq]
  refine parallel_of_current (S := fun _ => Eq) fun shift word => local_advance.bind fun _ =>
    parallel_current.bind (fun token => ?_) ?_
  · have hzero := parallel_wordLiteralFrom 0 (word.shift shift) token
    rw [Token.shift_zero, Token.shift_zero] at hzero
    exact hzero.advances
  · rintro _ token rfl
    exact parallel_wordLiteralFrom shift word token

theorem local_literal : Local shift literal := by
  refine local_of_current (fun _ _ => rfl) fun token => ?_
  cases token.kind with
  | string value => exact local_advance.map _
  | number text => exact local_advance.map _
  | binary text => exact local_advance.map _
  | leftParen => exact local_group.map _
  | identifier name => exact local_wordLiteral
  | symbol sign =>
      by_cases hsign : sign = '-' ∨ sign = '+'
      · simpa only [hsign, if_true] using local_signedNumber sign
      · simpa only [hsign, if_false] using parallel_unexpected _ _
  | keyword word =>
      cases word
      case NULL => exact local_advance.map _
      all_goals exact local_wordLiteral
  | _ => exact parallel_unexpected _ _

/-! ## Columns -/

theorem local_generatedColumn : Local shift generatedColumn :=
  local_group.bind fun _ => (local_eat _).map _

theorem local_keywordOption (keyword : Keyword) : Local shift (keywordOption keyword) := by
  unfold keywordOption
  split
  case h_6 => exact local_advance.bind fun _ => Local.map local_literal _
  case h_1 | h_13 => exact local_advance.bind fun _ => (local_expectKeyword _).map _
  case h_2 | h_3 | h_4 | h_5 | h_7 | h_14 => exact local_advance.map _
  case h_8 => exact local_advance.bind fun _ => local_string.map _
  case h_9 | h_11 => exact local_advance.bind fun _ => local_nameOrString.map _
  case h_10 =>
    exact local_advance.bind fun _ => (local_expectKeyword _).bind fun _ =>
      local_nameOrString.map _
  case h_12 =>
    exact local_advance.bind fun _ => (local_expectKeyword _).bind fun _ =>
      Local.map local_literal _
  case h_15 => exact local_advance.bind fun _ => (local_eatKind _).map _
  case h_16 => exact local_advance.bind fun _ => local_group.map _
  case h_17 =>
    exact local_advance.bind fun _ => (local_expectKeyword _).bind fun _ =>
      (local_expectKeyword _).bind fun _ => Local.map local_generatedColumn _
  case h_18 => exact local_advance.bind fun _ => Local.map local_generatedColumn _
  case h_19 =>
    refine parallel_of_current (S := fun _ => Eq) fun _ _ => parallel_fail _ _ _
  case h_20 => exact parallel_unexpected _ _

theorem local_droppedOption (word : String) : Local shift (droppedOption word) := by
  unfold droppedOption
  split
  case h_4 => exact local_advance.bind fun _ => local_number.map _
  case h_5 | h_6 => exact local_advance.bind fun _ => local_name.map _
  case h_7 => exact parallel_unexpected _ _
  all_goals exact local_advance

theorem local_columnOption : Local shift columnOption := by
  refine local_of_current (fun _ _ => rfl) fun token => ?_
  split
  next keyword _ => exact local_keywordOption keyword
  next word _ => exact (local_droppedOption word).map _
  next => exact parallel_unexpected _ _

theorem local_columnOptions : Local shift columnOptions := by
  refine Local.map (local_repeatWhile (local_of_current (fun _ _ => rfl) fun token => ?_)) _
  split
  next => exact parallel_pure rfl
  next => exact Local.map local_columnOption _

/-- A column comes with its place. -/
theorem parallel_columnDef :
    Parallel shift 1 columnDef columnDef fun written (written' : ColumnDef) =>
      written = written'.shift shift := by
  refine parallel_of_current
    (S := fun shift (written written' : ColumnDef) => written = written'.shift shift)
    fun shift token => ?_
  refine local_name.bind fun name => Local.bind local_dataType fun dataType =>
    Local.bind local_columnOptions fun options => parallel_get fun {back input other} hbeside => ?_
  rw [hbeside.lastStop]
  rfl

/-! ## Keys -/

theorem local_keyColumn : Local shift keyColumn := by
  refine local_name.bind fun column => (local_eatKind _).bind fun limited => ?_
  have horder : Local shift (do
      unless ← eatKeyword .ASC do
        let _ ← eatKeyword .DESC
      return column) := by
    refine (local_eatKind _).bind fun ascending => ?_
    split
    next => exact parallel_pure rfl
    next => exact (local_eatKind _).map _
  split
  next => exact local_number.bind fun _ => (local_expectKind _).bind fun _ => horder
  next => exact horder

theorem local_keyColumns : Local shift keyColumns :=
  (local_expectKind _).bind fun _ => (local_commaSeparated local_keyColumn).bind fun _ =>
    (local_expectKind _).map _

theorem local_skipIndexType : Local shift skipIndexType := by
  refine (local_eatKind _).bind fun found => ?_
  split
  next => exact local_name.map _
  next => exact parallel_pure rfl

theorem local_skipIndexOption : Local shift skipIndexOption := by
  refine (local_eatKind _).bind fun typed => .ite (local_name.map _) ?_
  refine (local_eatKind _).bind fun commented => .ite (local_string.map _) ?_
  refine (local_eat _).bind fun sized => .ite ?_ ?_
  · exact (local_eatKind _).bind fun _ => local_number.map _
  refine (local_eat _).bind fun visible => .ite (parallel_pure rfl) ?_
  refine (local_eat _).bind fun parsed => .ite ?_ (parallel_pure rfl)
  refine (local_eat _).bind fun named => .ite (local_name.map _) ?_
  exact Local.bind (parallel_unexpected _ _) fun _ => local_name.map _

theorem local_skipIndexOptions : Local shift skipIndexOptions :=
  (local_repeatWhile (Local.map local_skipIndexOption _)).map _

theorem local_keyBody : Local shift keyBody :=
  Local.bind local_skipIndexType fun _ => Local.bind local_keyColumns fun _ =>
    Local.map local_skipIndexOptions _

theorem local_indexName? : Local shift indexName? := by
  refine (local_atKind _).bind fun columns => (local_atKind _).bind fun typed => ?_
  split
  next => exact parallel_pure rfl
  next => exact local_name.map _

theorem local_qualifiedName : Local shift qualifiedName := by
  refine local_name.bind fun first => (local_eatKind _).bind fun found => ?_
  split
  next => exact local_name.map _
  next => exact parallel_pure rfl

theorem local_referentialAction : Local shift referentialAction := by
  refine (local_eatKind _).bind fun cascades => .ite (parallel_pure rfl) ?_
  refine (local_eatKind _).bind fun restricts => .ite (parallel_pure rfl) ?_
  refine (local_eatKind _).bind fun sets => .ite ?_ ?_
  · exact (local_eatKind _).bind fun isNull =>
      .ite (parallel_pure rfl) ((local_expectKeyword _).map _)
  · exact (local_eatKind _).bind fun no =>
      .ite ((local_expectKeyword _).map _) (parallel_unexpected _ _)

theorem local_referentialClause : Local shift referentialClause := by
  refine (local_eatKind _).bind fun updates => .ite (Local.map local_referentialAction _) ?_
  exact (local_eatKind _).bind fun deletes =>
    .ite (Local.map local_referentialAction _) (parallel_unexpected _ _)

theorem local_referentialClauses : Local shift referentialClauses := by
  refine Local.map (local_repeatWhile ((local_eatKind _).bind fun found => ?_)) _
  split
  next => exact Local.map local_referentialClause _
  next => exact parallel_pure rfl

theorem local_foreignKey (constraint : Option String) : Local shift (foreignKey constraint) := by
  refine (local_expectKeyword _).bind fun _ => (local_expectKeyword _).bind fun _ =>
    Local.bind local_indexName? fun index => Local.bind local_keyColumns fun columns =>
    (local_expectKeyword _).bind fun _ => Local.bind local_qualifiedName fun referenced =>
    Local.bind local_keyColumns fun referencedColumns => (local_eatKind _).bind fun matched => ?_
  split
  next => exact local_name.bind fun _ => Local.map local_referentialClauses _
  next => exact Local.map local_referentialClauses _

/-! ## Definitions -/

/-- The definition that was read further on in a source, if it is kept. -/
def Moved (shift : Nat) (definition definition' : Option Definition) : Prop :=
  definition = definition'.map (Definition.shift shift)

theorem local_constraintName? : Local shift constraintName? := by
  refine (local_eatKind _).bind fun found => ?_
  split
  next =>
    refine local_of_current (fun _ _ => rfl) fun token => ?_
    split
    next => exact local_name.map _
    next => exact parallel_pure rfl
  next => exact parallel_pure rfl

theorem local_skipCheck : Local shift skipCheck :=
  local_advance.bind fun _ => local_group.bind fun _ => (local_eatKind _).bind fun _ =>
    (local_eat _).map _

theorem parallel_indexDefinition (constraint : Option String) (kind : IndexKind) :
    Parallel shift 1 (indexDefinition constraint kind) (indexDefinition constraint kind)
      (Moved shift) :=
  Local.bind local_indexName? fun _ => Local.bind local_keyBody fun _ => parallel_pure rfl

theorem parallel_definitionBody (constraint : Option String) :
    Parallel shift 1 (definitionBody constraint) (definitionBody constraint) (Moved shift) := by
  refine parallel_of_current (S := Moved) fun shift token => ?_
  dsimp only [Token.shift]
  split
  next =>
    exact local_advance.bind fun _ => (local_expectKeyword _).bind fun _ =>
      Local.bind local_keyBody fun _ => parallel_pure rfl
  next => exact (local_foreignKey constraint).bind fun _ => parallel_pure rfl
  next => exact Local.bind local_skipCheck fun _ => parallel_pure rfl
  next =>
    split
    next kind _ =>
      have hindex : Parallel shift 1 _ _ (Moved shift) := parallel_indexDefinition constraint kind
      refine local_advance.bind fun _ => (local_eatKind _).bind fun index => ?_
      split
      next => exact hindex
      next => exact (local_eatKind _).bind fun _ => hindex
    next =>
      split
      next => exact parallel_unexpected _ _
      next =>
        split
        next =>
          exact local_advance.bind fun _ => Local.bind local_indexName? fun _ =>
            Local.bind local_keyBody fun _ => parallel_pure rfl
        next =>
          refine Parallel.map parallel_columnDef fun written written' hmoved => ?_
          rw [hmoved]
          rfl

theorem parallel_definition :
    Parallel shift 1 definition definition (Moved shift) :=
  Local.bind local_constraintName? parallel_definitionBody

/-! ## To the end of the definitions -/

variable {α β γ δ : Type} {p : Parser α} {q : Parser β} {R : α → β → Prop} {S : γ → δ → Prop}

/-- The parser reads some token when it succeeds. -/
def Consumes (p : Parser α) : Prop :=
  ∀ {input after a}, Segment.isTerminator input.stop = true → p.parse input = (.ok a, after) →
    after.tokens.length < input.tokens.length

/-- The second parser does the same on the other input, even if nothing is left of it. -/
structure Closing (shift : Nat) (p : Parser α) (q : Parser β) (R : α → β → Prop) : Prop where
  parallel : Parallel shift 0 p q R
  consumes : Consumes p

/-- A list goes on behind a comma, and ends with a closing parenthesis. -/
def listEnd (a : α) : Parser (α × Bool) := do
  if ← eatKind .comma then
    return (a, true)
  else
    expectKind .rightParen
    return (a, false)

theorem parse_listEnd_eq_ok_iff {a : α} {input after : Input} {result : α × Bool} :
    (listEnd a).parse input = (.ok result, after) ↔
      (input.current.kind = .comma ∧ result = (a, true)
        ∨ input.current.kind = .rightParen ∧ result = (a, false)) ∧ after = input.advance := by
  by_cases hcomma : input.current.kind = .comma
  · have hparse : (listEnd a).parse input = (.ok (a, true), input.advance) := by
      simp [listEnd, parse_bind, eatKind, parse_eat, hcomma, parse_pure]
    simp only [hparse, hcomma, Prod.mk.injEq, Except.ok.injEq, true_and, reduceCtorEq, false_and,
      or_false]
    exact and_congr eq_comm eq_comm
  · by_cases hparen : input.current.kind = .rightParen
    · have hparse : (listEnd a).parse input = (.ok (a, false), input.advance) := by
        simp [listEnd, expectKind, parse_bind, eatKind, parse_eat, hparen, parse_pure]
      simp only [hparse, hparen, Prod.mk.injEq, Except.ok.injEq, true_and, reduceCtorEq, false_and,
        false_or]
      exact and_congr eq_comm eq_comm
    · simp only [hcomma, hparen, false_and, or_self, iff_false]
      intro hparse
      rw [listEnd, parse_bind, eatKind, parse_eat, if_neg (by simp [hcomma])] at hparse
      obtain ⟨_, _, hexpect, -⟩ := exists_of_parse_bind hparse
      exact hparen (of_parse_expectKind hexpect).1

theorem advances_listEnd (a : α) : Advances (listEnd a) := by
  intro input after result hparse
  obtain ⟨-, rfl⟩ := parse_listEnd_eq_ok_iff.mp hparse
  exact input.follows_advance

theorem consumes_listEnd (a : α) : Consumes (listEnd a) := by
  intro input after result hstop hparse
  obtain ⟨hkind, rfl⟩ := parse_listEnd_eq_ok_iff.mp hparse
  obtain ⟨source, tokens, stop, last⟩ := input
  cases tokens with
  | nil =>
      have hcurrent : stop.kind = .comma ∨ stop.kind = .rightParen :=
        hkind.imp And.left And.left
      rcases hcurrent with hcurrent | hcurrent <;>
        simp [Segment.isTerminator, hcurrent] at hstop
  | cons token tokens => exact Nat.lt_succ_self _

theorem closing_listEnd {a : α} {b : β} (h : R a b) :
    Closing shift (listEnd a) (listEnd b) fun result result' =>
      R result.1 result'.1 ∧ result.2 = result'.2 := by
  refine ⟨⟨advances_listEnd a, ?_⟩, consumes_listEnd a⟩
  intro input after result back other hparse hbeside hle
  have hlength := consumes_listEnd a hbeside.stop hparse
  have hcurrent := hbeside.current (by omega)
  have hkind : input.current.kind = other.current.kind := by
    rw [hcurrent]
    rfl
  obtain ⟨hcases, rfl⟩ := parse_listEnd_eq_ok_iff.mp hparse
  rw [hkind] at hcases
  have hafter := hbeside.advance (by omega)
  rcases hcases with ⟨hcomma, rfl⟩ | ⟨hparen, rfl⟩
  · exact ⟨(b, true), other.advance,
      parse_listEnd_eq_ok_iff.mpr ⟨.inl ⟨hcomma, rfl⟩, rfl⟩, ⟨h, rfl⟩, hafter⟩
  · exact ⟨(b, false), other.advance,
      parse_listEnd_eq_ok_iff.mpr ⟨.inr ⟨hparen, rfl⟩, rfl⟩, ⟨h, rfl⟩, hafter⟩

theorem Parallel.closing {f : α → Parser γ} {g : β → Parser δ} (hp : Parallel shift 1 p q R)
    (hconsumes : ∀ a, Consumes (f a)) (hadvances : ∀ a, Advances (f a))
    (hf : ∀ a b, R a b → Parallel shift 0 (f a) (g b) S) : Closing shift (p >>= f) (q >>= g) S := by
  refine ⟨⟨hp.advances.bind hadvances, ?_⟩, ?_⟩
  · intro input after c back other hparse hbeside hle
    obtain ⟨a, middle, hfirst, hrest⟩ := exists_of_parse_bind hparse
    have hstop : Segment.isTerminator middle.stop = true := by
      rw [(hp.advances _ _ _ hfirst).stop]
      exact hbeside.stop
    have hlength := hconsumes a hstop hrest
    obtain ⟨b, next, hq, hab, hmiddle⟩ := hp.beside hfirst hbeside (by omega)
    obtain ⟨d, last, hg, hcd, hafter⟩ := (hf a b hab).beside hrest hmiddle hle
    refine ⟨d, last, ?_, hcd, hafter⟩
    rw [parse_bind, hq]
    exact hg
  · intro input after c hstop hparse
    obtain ⟨a, middle, hfirst, hrest⟩ := exists_of_parse_bind hparse
    have hfollows := hp.advances _ _ _ hfirst
    exact (hconsumes a (hfollows.stop ▸ hstop) hrest).trans_le hfollows.length_le

theorem Closing.quotingDefinition {p q : Parser α} {R : α → α → Prop} (h : Closing shift p q R) :
    Closing shift (quotingDefinition p) (quotingDefinition q) R := by
  refine ⟨⟨fun _ _ _ hparse => ?_, fun hparse hbeside hle => ?_⟩, fun hstop hparse => ?_⟩
  · exact h.parallel.advances _ _ _ (parse_quotingDefinition_eq_ok_iff.mp hparse)
  · obtain ⟨b, next, hq, hbeside⟩ :=
      h.parallel.beside (parse_quotingDefinition_eq_ok_iff.mp hparse) hbeside hle
    exact ⟨b, next, parse_quotingDefinition_eq_ok_iff.mpr hq, hbeside⟩
  · exact h.consumes hstop (parse_quotingDefinition_eq_ok_iff.mp hparse)

theorem closing_repeatWhile {step : Parser (α × Bool)} {step' : Parser (β × Bool)}
    (h : Closing shift step step' fun result result' =>
      R result.1 result'.1 ∧ result.2 = result'.2) :
    Closing shift (repeatWhile step) (repeatWhile step') (List.Forall₂ R) := by
  refine ⟨parallel_repeatWhile h.parallel, ?_⟩
  intro input after as hstop hparse
  change repeatFrom step input = _ at hparse
  rw [repeatFrom] at hparse
  split at hparse
  next => simp at hparse
  next a middle hstep =>
    obtain ⟨-, rfl⟩ : [a] = as ∧ middle = after := by simpa using hparse
    exact h.consumes hstop hstep
  next a middle hstep =>
    split at hparse
    next hshorter =>
      cases hrest : repeatFrom step middle with
      | mk rest last =>
          rw [hrest] at hparse
          cases rest with
          | error => simp [Except.map] at hparse
          | ok rest =>
              obtain ⟨-, rfl⟩ : a :: rest = as ∧ last = after := by
                simpa [Except.map] using hparse
              have hfollows := advances_repeatWhile h.parallel.advances _ _ _ hrest
              exact hfollows.length_le.trans_lt hshorter
    next =>
      obtain ⟨-, rfl⟩ : [a] = as ∧ middle = after := by simpa using hparse
      exact h.consumes hstop hstep

/-- A list of definitions is read through its closing parenthesis. -/
theorem closing_definitions :
    Closing shift definitions definitions fun list (list' : List Definition) =>
      list = list'.map (Definition.shift shift) := by
  have hlisted : Closing shift listedDefinition listedDefinition fun result result' =>
      Moved shift result.1 result'.1 ∧ result.2 = result'.2 :=
    parallel_definition.closing consumes_listEnd advances_listEnd fun _ _ hmoved =>
      (closing_listEnd hmoved).parallel
  have hlist := closing_repeatWhile hlisted.quotingDefinition
  refine ⟨hlist.parallel.map fun parsed parsed' hmoved => ?_, ?_⟩
  · have hparsed : parsed = parsed'.map (Option.map (Definition.shift shift)) := by
      rw [← List.forall₂_eq_eq_eq, List.forall₂_map_right_iff]
      exact hmoved
    rw [hparsed, List.filterMap_map, List.map_filterMap]
    rfl
  · intro input after list hstop hparse
    obtain ⟨parsed, middle, hparsed, hrest⟩ := exists_of_parse_bind hparse
    obtain ⟨-, rfl⟩ : parsed.filterMap id = list ∧ middle = after := by
      simpa [parse_pure] using hrest
    exact hlist.consumes hstop hparsed

end Parser

end SchemaDelta.Sql
