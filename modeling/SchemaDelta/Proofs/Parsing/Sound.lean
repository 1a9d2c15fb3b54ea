import SchemaDelta.Proofs.Parsing.DataType
import SchemaDelta.Proofs.Parsing.Readable

/-!
# What is read can be written

Every definition that the parser reads from a script names types that can be written,
gives defaults that can be written, and has keys of at least one column.
-/

namespace SchemaDelta.Sql

/-- The type and the defaults of the column can be written and read again. -/
structure ColumnDef.Sound (written : ColumnDef) : Prop where
  typeName : IsTypeName written.dataType.name
  typeArgs : written.dataType.args.Fits
  default : ∀ literal, .default literal ∈ written.options → literal.Sound

/-- Columns are sound, and keys have columns. -/
def Definition.Sound : Definition → Prop
  | .column written => written.Sound
  | .primaryKey columns => columns ≠ []
  | .index written => written.columns ≠ []
  | .foreignKey key => key.columns ≠ [] ∧ key.referencedColumns ≠ []

def CreateTable.Sound (table : CreateTable) : Prop :=
  ∀ definition ∈ table.definitions, definition.Sound

def Statement.Sound : Statement → Prop
  | .createTable table => table.Sound
  | .other _ => True

/-- A primary key has a clause of its own, and is none of the indexes. -/
def Definition.Secondary : Definition → Prop
  | .index written => written.kind ≠ .primary
  | _ => True

/-- What is known of all definitions that are read. -/
structure Definition.Regular (definition : Definition) : Prop where
  sound : definition.Sound
  secondary : definition.Secondary

def Statement.Regular : Statement → Prop
  | .createTable table => ∀ definition ∈ table.definitions, definition.Regular
  | .other _ => True

theorem Statement.Regular.sound {statement : Statement} (h : statement.Regular) :
    statement.Sound := by
  cases statement with
  | createTable table => exact fun definition hmem => (h definition hmem).sound
  | other span => trivial

namespace Parser

/-! ## Types -/

theorem of_isWordKind {token : Token} (htoken : token.Genuine)
    (hkind : isWordKind token.kind = true) :
    token.kind = wordKind token.text.toList ∧ IsWord token.text.toList := by
  rcases htoken with hstop | hwhole
  · cases hcases : token.kind <;> simp [Segment.isTerminator, isWordKind, hcases] at hstop hkind
  · have heq := isWord_of_whole hwhole hkind
    rw [heq] at hwhole
    exact ⟨heq, hwhole⟩

theorem keeps_typeWord : Keeps typeWord fun word => IsWord word.toList := by
  refine keeps_current.bind fun token htoken => ?_
  split
  next hkind =>
    have hword := (of_isWordKind htoken (by rw [hkind]; rfl)).2
    exact stays_advance.bind fun _ => keeps_pure hword
  next hkind =>
    have hword := (of_isWordKind htoken (by rw [hkind]; rfl)).2
    exact stays_advance.bind fun _ => keeps_pure hword
  next => exact keeps_unexpected _

theorem isWordKind_of_isWord {word : String} {kind : TokenKind} (h : isWord word kind = true) :
    isWordKind kind = true := by
  cases kind <;> simp [isWord, isWordKind] at h ⊢

theorem keeps_typeName : Keeps typeName IsTypeName := by
  refine Keeps.bind keeps_typeWord fun first hfirst => keeps_current.bind fun second hsecond => ?_
  split
  next word hword =>
    split
    next hkind =>
      obtain ⟨heq, hsecond⟩ := of_isWordKind hsecond (isWordKind_of_isWord hkind)
      rw [heq] at hkind
      exact stays_advance.bind fun _ => keeps_pure (.two hfirst hsecond hword hkind)
    next => exact keeps_pure (.one hfirst)
  next => exact keeps_pure (.one hfirst)

theorem keeps_typeArgument :
    Keeps typeArgument fun argument => ∀ n, argument = .inl n → n ≤ 4294967295 := by
  refine keeps_current.bind fun token _ => ?_
  split
  next =>
    refine keeps_number.map fun n hn m heq => ?_
    obtain rfl := Sum.inl.inj heq
    exact hn
  next => exact stays_string.bind fun _ => keeps_pure (by simp)
  next => exact keeps_unexpected _

theorem fits_of_typeArgsOf? {arguments : List (Nat ⊕ String)} {args : TypeArgs}
    (hargs : typeArgsOf? arguments = some args)
    (h : ∀ argument ∈ arguments, ∀ n, argument = .inl n → n ≤ 4294967295) : args.Fits := by
  have hnumbers : ∀ n ∈ arguments.filterMap Sum.getLeft?, n ≤ 4294967295 := by
    intro n hn
    obtain ⟨argument, hmem, hleft⟩ := List.mem_filterMap.mp hn
    exact h argument hmem n (Sum.getLeft?_eq_some_iff.mp hleft)
  unfold typeArgsOf? at hargs
  dsimp only at hargs
  split at hargs
  next =>
    obtain rfl := Option.some.inj hargs
    simp [TypeArgs.Fits, TypeArgs.arguments]
  next n hn _ =>
    obtain rfl := Option.some.inj hargs
    simpa [TypeArgs.Fits, TypeArgs.arguments, hn] using hnumbers
  next p s hn _ =>
    obtain rfl := Option.some.inj hargs
    simpa [TypeArgs.Fits, TypeArgs.arguments, hn] using hnumbers
  next => cases hargs

/-- A list of arguments ends with a parenthesis, and has to be one that a type can have. -/
def typeArgsEnd (start : Nat) (arguments : List (Nat ⊕ String)) : Parser TypeArgs := do
  expectKind .rightParen
  match typeArgsOf? arguments with
  | some args => return args
  | none => fail ⟨start, (← get).lastStop⟩ .typeArguments

theorem keeps_typeArgsEnd (start : Nat) {arguments : List (Nat ⊕ String)}
    (h : ∀ argument ∈ arguments, ∀ n, argument = .inl n → n ≤ 4294967295) :
    Keeps (typeArgsEnd start arguments) TypeArgs.Fits := by
  refine (stays_expectKind _).bind fun _ => ?_
  split
  next args hsome => exact keeps_pure (fits_of_typeArgsOf? hsome h)
  next => exact stays_get.bind fun _ => keeps_fail _ _

theorem keeps_typeArgs : Keeps typeArgs TypeArgs.Fits := by
  refine keeps_current.bind fun token _ => (stays_expectKind _).bind fun _ =>
    (stays_atKind _).bind fun empty => ?_
  split
  next => exact keeps_typeArgsEnd token.span.start (List.forall_mem_nil _)
  next =>
    exact (keeps_commaSeparated keeps_typeArgument).bind fun arguments h =>
      keeps_typeArgsEnd token.span.start h.2

theorem keeps_dataType :
    Keeps dataType fun written => IsTypeName written.name ∧ written.args.Fits := by
  refine Keeps.bind keeps_typeName fun name hname => (stays_atKind _).bind fun found => ?_
  split
  next => exact Keeps.map keeps_typeArgs fun args hargs => ⟨hname, hargs⟩
  next => exact keeps_pure ⟨hname, by simp [TypeArgs.Fits, TypeArgs.arguments]⟩

/-! ## Columns -/

/-- The option is a default that can be written, or no default. -/
def SoundOption (option : ColumnOption) : Prop :=
  ∀ literal, option = .default literal → literal.Sound

theorem keeps_some {option : ColumnOption} (h : SoundOption option) :
    Keeps (pure (some option)) fun option => ∀ o ∈ option, SoundOption o :=
  keeps_pure (by simpa using h)

theorem keeps_generatedColumn : Keeps generatedColumn SoundOption := by
  refine keeps_group.bind fun text _ => (stays_eat _).bind fun _ => keeps_pure ?_
  simp [SoundOption]

theorem keeps_keywordOption (keyword : Keyword) :
    Keeps (keywordOption keyword) fun option => ∀ o ∈ option, SoundOption o := by
  have hother : ∀ {option : ColumnOption}, (∀ literal, option ≠ .default literal) →
      SoundOption option := fun h literal heq => absurd heq (h literal)
  unfold keywordOption
  split
  case h_6 =>
    refine stays_advance.bind fun _ => keeps_literal.bind fun literal hliteral => keeps_some ?_
    rintro _ ⟨⟩
    exact hliteral
  case h_1 | h_13 =>
    exact stays_advance.bind fun _ => (stays_expectKeyword _).bind fun _ =>
      keeps_some (hother (by simp))
  case h_2 | h_3 | h_5 | h_7 | h_14 =>
    exact stays_advance.bind fun _ => keeps_some (hother (by simp))
  case h_4 => exact stays_advance.bind fun _ => keeps_pure (by simp)
  case h_8 =>
    exact stays_advance.bind fun _ => stays_string.bind fun _ => keeps_some (hother (by simp))
  case h_9 | h_11 =>
    exact stays_advance.bind fun _ => stays_nameOrString.bind fun _ => keeps_some (hother (by simp))
  case h_10 =>
    exact stays_advance.bind fun _ => (stays_expectKeyword _).bind fun _ =>
      stays_nameOrString.bind fun _ => keeps_some (hother (by simp))
  case h_12 =>
    exact stays_advance.bind fun _ => (stays_expectKeyword _).bind fun _ =>
      keeps_literal.bind fun _ _ => keeps_some (hother (by simp))
  case h_15 =>
    exact stays_advance.bind fun _ => (stays_eatKind _).bind fun _ => keeps_some (hother (by simp))
  case h_16 =>
    exact stays_advance.bind fun _ => keeps_group.bind fun _ _ => keeps_pure (by simp)
  case h_17 =>
    exact stays_advance.bind fun _ => (stays_expectKeyword _).bind fun _ =>
      (stays_expectKeyword _).bind fun _ => Keeps.bind keeps_generatedColumn fun _ => keeps_some
  case h_18 =>
    exact stays_advance.bind fun _ => Keeps.bind keeps_generatedColumn fun _ => keeps_some
  case h_19 => exact keeps_current.bind fun _ _ => keeps_fail _ _
  case h_20 => exact keeps_unexpected _

theorem stays_droppedOption (word : String) : Stays (droppedOption word) := by
  unfold droppedOption
  split
  case h_4 => exact stays_advance.bind fun _ => keeps_number.stays.map _
  case h_5 | h_6 => exact stays_advance.bind fun _ => stays_name.map _
  case h_7 => exact keeps_unexpected _
  all_goals exact stays_advance

theorem keeps_columnOption :
    Keeps columnOption fun option => ∀ o ∈ option, SoundOption o := by
  refine keeps_current.bind fun token _ => ?_
  split
  next keyword _ => exact keeps_keywordOption keyword
  next word _ => exact (stays_droppedOption word).bind fun _ => keeps_pure (by simp)
  next => exact keeps_unexpected _

theorem keeps_columnOptions : Keeps columnOptions fun options => ∀ o ∈ options, SoundOption o := by
  refine Keeps.map (keeps_repeatWhile (Q := fun option => ∀ o ∈ option, SoundOption o) ?_) ?_
  · refine keeps_current.bind fun token _ => ?_
    split
    next => exact keeps_pure (by simp)
    next => exact Keeps.map keeps_columnOption fun option hoption => hoption
  · rintro options ⟨-, hall⟩ o ho
    obtain ⟨option, hmem, hsome⟩ := List.mem_filterMap.mp ho
    exact hall option hmem o hsome

theorem keeps_columnDef : Keeps columnDef ColumnDef.Sound := by
  refine keeps_current.bind fun token _ => stays_name.bind fun name => Keeps.bind keeps_dataType
    fun dataType hdataType => Keeps.bind keeps_columnOptions fun options hoptions => ?_
  refine stays_get.bind fun _ => keeps_pure ⟨hdataType.1, hdataType.2, fun literal hmem => ?_⟩
  exact hoptions _ hmem literal rfl

/-! ## Keys -/

theorem stays_keyColumn : Stays keyColumn := by
  refine stays_name.bind fun column => (stays_eatKind _).bind fun prefixed => ?_
  have horder : Stays (do
      unless ← eatKeyword .ASC do
        let _ ← eatKeyword .DESC
      return column) := by
    refine (stays_eatKind _).bind fun ascending => ?_
    split
    next => exact keeps_pure trivial
    next => exact (stays_eatKind _).map _
  split
  next => exact keeps_number.stays.bind fun _ => (stays_expectKind _).bind fun _ => horder
  next => exact horder

theorem keeps_keyColumns : Keeps keyColumns (· ≠ []) := by
  refine (stays_expectKind _).bind fun _ => ?_
  refine (keeps_commaSeparated stays_keyColumn).bind fun columns hcolumns => ?_
  exact (stays_expectKind _).bind fun _ => keeps_pure hcolumns.1

theorem stays_skipIndexType : Stays skipIndexType := by
  refine (stays_eatKind _).bind fun found => ?_
  split
  next => exact stays_name.map _
  next => exact keeps_pure trivial

theorem stays_skipIndexOption : Stays skipIndexOption := by
  refine (stays_eatKind _).bind fun typed => .ite (stays_name.map _) ?_
  refine (stays_eatKind _).bind fun commented => .ite (stays_string.map _) ?_
  refine (stays_eat _).bind fun sized => .ite ?_ ?_
  · exact (stays_eatKind _).bind fun _ => keeps_number.stays.map _
  refine (stays_eat _).bind fun visible => .ite (keeps_pure trivial) ?_
  refine (stays_eat _).bind fun parsed => .ite ?_ (keeps_pure trivial)
  refine (stays_eat _).bind fun named => .ite (stays_name.map _) ?_
  exact Stays.bind (keeps_unexpected _) fun _ => stays_name.map _

theorem stays_skipIndexOptions : Stays skipIndexOptions := by
  refine (keeps_repeatWhile (Q := fun _ => True) ?_).stays.map _
  exact Stays.map stays_skipIndexOption _

theorem keeps_keyBody : Keeps keyBody (· ≠ []) := by
  refine Stays.bind stays_skipIndexType fun _ => Keeps.bind keeps_keyColumns fun columns hne => ?_
  exact Stays.bind stays_skipIndexOptions fun _ => keeps_pure hne

theorem stays_indexName? : Stays indexName? := by
  refine (stays_atKind _).bind fun columns => (stays_atKind _).bind fun typed => ?_
  split
  next => exact keeps_pure trivial
  next => exact stays_name.map _

theorem stays_qualifiedName : Stays qualifiedName := by
  refine stays_name.bind fun first => (stays_eatKind _).bind fun found => ?_
  split
  next => exact stays_name.map _
  next => exact keeps_pure trivial

theorem stays_referentialAction : Stays referentialAction := by
  refine (stays_eatKind _).bind fun cascades => .ite (keeps_pure trivial) ?_
  refine (stays_eatKind _).bind fun restricts => .ite (keeps_pure trivial) ?_
  refine (stays_eatKind _).bind fun sets => .ite ?_ ?_
  · exact (stays_eatKind _).bind fun isNull =>
      .ite (keeps_pure trivial) ((stays_expectKeyword _).map _)
  · exact (stays_eatKind _).bind fun no => .ite ((stays_expectKeyword _).map _) (keeps_unexpected _)

theorem stays_referentialClause : Stays referentialClause := by
  refine (stays_eatKind _).bind fun updates => .ite (Stays.map stays_referentialAction _) ?_
  exact (stays_eatKind _).bind fun deletes =>
    .ite (Stays.map stays_referentialAction _) (keeps_unexpected _)

theorem stays_referentialClauses : Stays referentialClauses := by
  refine (keeps_repeatWhile (Q := fun _ => True) ?_).stays.map _
  refine (stays_eatKind _).bind fun found => ?_
  split
  next => exact Stays.map stays_referentialClause _
  next => exact keeps_pure trivial

theorem keeps_foreignKey (constraint : Option String) :
    Keeps (foreignKey constraint) fun key => key.columns ≠ [] ∧ key.referencedColumns ≠ [] := by
  refine (stays_expectKeyword _).bind fun _ => (stays_expectKeyword _).bind fun _ =>
    Stays.bind stays_indexName? fun index => Keeps.bind keeps_keyColumns fun columns hcolumns =>
    (stays_expectKeyword _).bind fun _ => Stays.bind stays_qualifiedName fun referenced =>
    Keeps.bind keeps_keyColumns fun referencedColumns hreferenced =>
    (stays_eatKind _).bind fun matched => ?_
  split
  next =>
    exact stays_name.bind fun _ => Stays.bind stays_referentialClauses fun clauses =>
      keeps_pure ⟨hcolumns, hreferenced⟩
  next =>
    exact Stays.bind stays_referentialClauses fun clauses => keeps_pure ⟨hcolumns, hreferenced⟩

/-! ## Definitions -/

/-- What is known of a definition, if it is kept. -/
def RegularEntry (definition : Option Definition) : Prop :=
  ∀ d ∈ definition, d.Regular

theorem keeps_entry {d : Definition} (h : d.Sound) (hsecondary : d.Secondary) :
    Keeps (pure (some d)) RegularEntry := by
  refine keeps_pure ?_
  rintro _ ⟨⟩
  exact ⟨h, hsecondary⟩

theorem keeps_noEntry : Keeps (pure none) RegularEntry := by
  refine keeps_pure ?_
  rintro _ ⟨⟩

theorem stays_constraintName? : Stays constraintName? := by
  refine (stays_eatKind _).bind fun found => ?_
  split
  next =>
    refine keeps_current.bind fun token _ => ?_
    split
    next => exact stays_name.map _
    next => exact keeps_pure trivial
  next => exact keeps_pure trivial

theorem stays_skipCheck : Stays skipCheck :=
  stays_advance.bind fun _ => keeps_group.stays.bind fun _ => (stays_eatKind _).bind fun _ =>
    (stays_eat _).map _

/-- An index behind the words that say of which kind it is. -/
def indexDefinition (constraint : Option String) (kind : IndexKind) :
    Parser (Option Definition) := do
  let indexName ← indexName?
  return some (.index ⟨indexName.or constraint, kind, ← keyBody⟩)

theorem keeps_indexDefinition (constraint : Option String) {kind : IndexKind}
    (hkind : kind ≠ .primary) : Keeps (indexDefinition constraint kind) RegularEntry :=
  Stays.bind stays_indexName? fun _ => Keeps.bind keeps_keyBody fun _ hne => keeps_entry hne hkind

theorem ne_primary_of_uniqueKind? {token : TokenKind} {kind : IndexKind}
    (h : definitionBody.uniqueKind? token = some kind) : kind ≠ .primary := by
  unfold definitionBody.uniqueKind? at h
  split at h
  next keyword =>
    unfold indexKind? at h
    split at h <;> cases h
    all_goals simp
  next => cases h

theorem keeps_definitionBody (constraint : Option String) :
    Keeps (definitionBody constraint) RegularEntry := by
  refine keeps_current.bind fun token _ => ?_
  split
  next =>
    exact stays_advance.bind fun _ => (stays_expectKeyword _).bind fun _ =>
      Keeps.bind keeps_keyBody fun columns hne => keeps_entry hne trivial
  next => exact (keeps_foreignKey constraint).bind fun key hkey => keeps_entry hkey trivial
  next => exact Stays.bind stays_skipCheck fun _ => keeps_noEntry
  next =>
    split
    next kind hsome =>
      have hindex := keeps_indexDefinition constraint (ne_primary_of_uniqueKind? hsome)
      refine stays_advance.bind fun _ => (stays_eatKind _).bind fun index => ?_
      split
      next => exact hindex
      next => exact (stays_eatKind _).bind fun _ => hindex
    next =>
      split
      next => exact keeps_unexpected _
      next =>
        split
        next =>
          exact stays_advance.bind fun _ => Stays.bind stays_indexName? fun name =>
            Keeps.bind keeps_keyBody fun columns hne =>
              keeps_entry hne (by simp [Definition.Secondary])
        next => exact Keeps.bind keeps_columnDef fun column hcolumn => keeps_entry hcolumn trivial

theorem keeps_definition : Keeps definition RegularEntry :=
  Stays.bind stays_constraintName? keeps_definitionBody

/-- Quoting a definition only concerns its errors. -/
theorem parse_quotingDefinition_eq_ok_iff {α : Type} {p : Parser α} {input after : Input} {a : α} :
    (quotingDefinition p).parse input = (.ok a, after) ↔ p.parse input = (.ok a, after) := by
  rw [quotingDefinition, parse_bind, parse_get]
  dsimp only
  rw [parse_tryCatch]
  split
  next hparse => rw [hparse]
  next hparse => simp [hparse, parse_throw]

theorem Keeps.quotingDefinition {α : Type} {p : Parser α} {Q : α → Prop} (h : Keeps p Q) :
    Keeps (quotingDefinition p) Q := fun _ _ _ hstanding hparse =>
  h _ _ _ hstanding (parse_quotingDefinition_eq_ok_iff.mp hparse)

theorem keeps_listedDefinition : Keeps listedDefinition fun result => RegularEntry result.1 := by
  refine Keeps.bind keeps_definition fun parsed hparsed => (stays_eatKind _).bind fun found => ?_
  split
  next => exact keeps_pure hparsed
  next => exact (stays_expectKind _).bind fun _ => keeps_pure hparsed

theorem keeps_definitions : Keeps definitions fun list => ∀ d ∈ list, d.Regular := by
  refine (keeps_repeatWhile keeps_listedDefinition.quotingDefinition).map ?_
  rintro parsed ⟨-, hall⟩ d hd
  obtain ⟨entry, hmem, hsome⟩ := List.mem_filterMap.mp hd
  exact hall entry hmem d hsome

/-! ## Statements -/

theorem stays_ifNotExists : Stays ifNotExists := by
  refine (stays_eatKind _).bind fun found => ?_
  split
  next => exact (stays_expectKeyword _).bind fun _ => (stays_expectKeyword _).map _
  next => exact keeps_pure trivial

theorem stays_skipRest : Stays skipRest := by
  rintro input after _ hstanding hparse
  rw [skipRest, parse_modify, Prod.mk.injEq] at hparse
  rw [← hparse.2]
  split
  next => exact ⟨trivial, ⟨0, [], rfl, ⟨[], input.source, by simp, rfl⟩, trivial⟩, hstanding.2⟩
  next => exact ⟨trivial, hstanding⟩

theorem keeps_otherStatement (start : Nat) : Keeps (otherStatement start) Statement.Regular :=
  Stays.bind stays_skipRest fun _ => stays_get.bind fun _ => keeps_pure trivial

theorem keeps_createTable (database : Option String) (start : Nat) (temporary : Bool) :
    Keeps (createTable database start temporary) Statement.Regular := by
  refine Stays.bind stays_ifNotExists fun ifNotExists =>
    Stays.bind stays_qualifiedName fun name => ?_
  dsimp only
  split
  next =>
    refine keeps_current.bind fun token _ => ?_
    split
    next => exact keeps_fail _ _
    next =>
      refine (stays_expectKind _).bind fun _ => Keeps.bind keeps_definitions fun list hlist => ?_
      exact stays_get.bind fun _ => Stays.bind stays_skipRest fun _ => keeps_pure hlist
  next => exact keeps_otherStatement start

theorem keeps_statement (database : Option String) :
    Keeps (statement database) Statement.Regular := by
  refine keeps_current.bind fun token _ => (stays_eatKind _).bind fun creates => ?_
  split
  next =>
    refine (stays_eatKind _).bind fun temporary => (stays_eatKind _).bind fun table => ?_
    split
    next => exact keeps_createTable database _ temporary
    next => exact keeps_otherStatement _
  next => exact keeps_otherStatement _

end Parser

/-! ## Scripts -/

namespace Segment

theorem isTerminator_of_mem_split {lexemes : List Lexeme} :
    ∀ segment ∈ split lexemes, isTerminator segment.terminator = true := by
  have hpush : ∀ {lexeme : Lexeme} {segments : List Segment},
      (∀ segment ∈ segments, isTerminator segment.terminator = true) →
        ∀ segment ∈ push lexeme segments, isTerminator segment.terminator = true := by
    intro lexeme segments h
    cases segments with
    | nil => simp [push]
    | cons first others => simpa [push] using h
  induction lexemes with
  | nil => simp [split]
  | cons lexeme lexemes ih =>
      cases lexeme with
      | error error => exact hpush ih
      | ok token =>
          rw [split]
          split
          next hterminator => simpa [hterminator] using ih
          next => exact hpush ih

/-- A parser cannot go past what it finds behind the tokens of a segment. -/
theorem isTerminator_stop {segment : Segment} (h : isTerminator segment.terminator = true)
    (source : List Char) : isTerminator (segment.input source).stop = true := by
  unfold input
  dsimp only
  split
  next => rfl
  next => exact h

theorem standing_input {source : List Char} {segment : Segment}
    (h : segment ∈ Script.segments source) : (segment.input source).Standing := by
  obtain ⟨front, pieces, back, hsource, htokens, hlegible⟩ := Script.exists_pieces h
  exact ⟨⟨_, pieces, htokens, ⟨front, back, hsource, rfl⟩, hlegible⟩,
    isTerminator_stop (isTerminator_of_mem_split segment h) source⟩

theorem regular_of_run {source : List Char} {database : Option String} {segment : Segment}
    (h : segment ∈ Script.segments source) {index start : Nat} {statement : Statement}
    (hrun : segment.run source (Parser.statement database) index start = .ok statement) :
    statement.Regular := by
  unfold run at hrun
  dsimp only at hrun
  split at hrun
  next result after hparse =>
    split at hrun
    next => cases hrun
    next => cases hrun
    next value _ =>
      obtain rfl := Except.ok.inj hrun
      exact (Parser.keeps_statement database _ _ _ (standing_input h) hparse).1

end Segment

end SchemaDelta.Sql
