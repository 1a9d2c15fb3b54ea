import SchemaDelta.Proofs.Parsing.Widening

/-!
# Where column options end

A literal could go on with a group or, behind the name of a character set, with a string, and
some options have a last word that may be left out.  Apart from these, an option ends by
itself, whatever follows.
-/

namespace SchemaDelta.Sql.Parser

open Input

variable {shift : Nat} {follow : TokenKind → Prop}

/-! ## Literals -/

def afterLiteral (kind : TokenKind) : Prop :=
  kind ≠ .leftParen ∧ ∀ value, kind ≠ .string value

theorem widens_signedNumber (sign : Char) :
    Widens shift 1 follow (signedNumber sign) (signedNumber sign) := by
  refine widens_advance_bind (Widens.of_needs (widens_of_current (fun _ => rfl) fun token => ?_)
    (needs_of_current fun token hkind => ?_))
  · split
    next => exact widens_advance_map _
    next => exact widens_unexpected _
  · simp only [hkind]
    exact parse_unexpected_ne_ok _

theorem parse_wordLiteralFrom_string {word token : Token} {value : String} (input : Input)
    (hhead : word.text.toList.head? = some '_') (hvalue : token.kind = .string value) :
    (wordLiteralFrom word token).parse input = (.ok (.string value), input.advance) := by
  simp only [wordLiteralFrom, hhead, hvalue]
  rfl

theorem parse_wordLiteralFrom {word token : Token} (input : Input)
    (hstring : word.text.toList.head? = some '_' → ∀ value, token.kind ≠ .string value) :
    (wordLiteralFrom word token).parse input =
      if input.current.kind = .leftParen then
        match group.parse input with
        | (.ok _, after) =>
            (.ok (.expression (Span.text ⟨word.span.start, after.lastStop⟩ after.source)), after)
        | (.error error, after) => (.error error, after)
      else
        (.ok (.expression (Span.text ⟨word.span.start, input.lastStop⟩ input.source)), input) := by
  have hrest : wordLiteralFrom word token = (do
      if ← atKind .leftParen then
        let _ ← group
      let input ← get
      return .expression (Span.text ⟨word.span.start, input.lastStop⟩ input.source)) := by
    unfold wordLiteralFrom
    split
    next value hhead hvalue => exact absurd hvalue (hstring hhead value)
    next => rfl
  rw [hrest, parse_bind, parse_atKind]
  by_cases hgroup : input.current.kind = .leftParen
  · simp only [hgroup, beq_self_eq_true, if_true, parse_bind]
    cases group.parse input with
    | mk result after => cases result <;> rfl
  · rw [beq_false_of_ne hgroup, if_neg hgroup]
    rfl

/-- A word and a group, if there is one, are one literal in both inputs. -/
theorem along_wordLiteralFrom {input other next : Input} {back : List Token} {stop word : Token}
    {literal : Literal} {tokens : List Token} (htokens : other.tokens = word :: tokens)
    (halong : input.Along shift back stop other)
    (hnone : word.text.toList.head? = some '_' →
      ∀ value, other.advance.current.kind ≠ .string value)
    (hparse : (wordLiteralFrom word other.advance.current).parse other.advance
      = (.ok literal, next))
    (hkind : next.tokens = [] → afterLiteral (kindBehind back stop)) :
    ∃ after, (wordLiteralFrom (word.shift shift) input.advance.current).parse input.advance
      = (.ok literal, after) ∧ after.Along shift back stop next := by
  have hrest := halong.advance_cons htokens
  have hkinds := hrest.kind_current
  have htext := halong.text word (htokens ▸ List.mem_cons_self)
  rw [parse_wordLiteralFrom _ hnone] at hparse
  by_cases hgroup : other.advance.current.kind = .leftParen
  · have hkind' : input.advance.current.kind = .leftParen :=
      (hkinds.resolve_right (by simp [hgroup])).trans hgroup
    rw [if_pos hgroup] at hparse
    cases hresult : group.parse other.advance with
    | mk result last =>
        rw [hresult] at hparse
        cases result with
        | error => simp at hparse
        | ok text =>
            obtain ⟨rfl, rfl⟩ := hparse
            obtain ⟨after, hafter, hlast, token, hmem, hstop, hstop'⟩ := along_group hresult hrest
            have hsource := (advances_group _ _ _ hresult).source
            have hsource' := (advances_group _ _ _ hafter).source
            refine ⟨after, ?_, hlast⟩
            rw [parse_wordLiteralFrom _ fun _ value => by simp [hkind'], if_pos hkind', hafter]
            dsimp only
            rw [hstop, hstop', hsource, hsource', other.follows_advance.source,
              input.follows_advance.source]
            rw [← htext token (other.follows_advance.mem hmem)]
            rfl
  · -- The word is the whole literal, if neither a group nor a string comes behind it.
    rw [if_neg hgroup] at hparse
    obtain ⟨rfl, rfl⟩ := hparse
    have hends : input.advance.current.kind = other.advance.current.kind
        ∨ afterLiteral input.advance.current.kind :=
      hkinds.imp_right fun ⟨hnil, hbehind, _⟩ => hbehind ▸ hkind hnil
    have hgroup' : input.advance.current.kind ≠ .leftParen :=
      hends.elim (fun heq => heq ▸ hgroup) And.left
    have hnone' : (word.shift shift).text.toList.head? = some '_' →
        ∀ value, input.advance.current.kind ≠ .string value := fun hhead =>
      hends.elim (fun heq => heq ▸ hnone hhead) And.right
    refine ⟨_, ?_, hrest⟩
    rw [parse_wordLiteralFrom _ hnone', if_neg hgroup', other.follows_advance.source,
      input.follows_advance.source]
    simp only [Input.advance, halong.tokens, htokens, List.map_cons, List.cons_append]
    rw [← htext word (htokens ▸ List.mem_cons_self)]
    rfl

theorem widens_wordLiteral : Widens shift 1 afterLiteral wordLiteral wordLiteral := by
  refine ⟨Parallel.advances (local_wordLiteral : Local 0 wordLiteral), ?_⟩
  intro input other next back stop literal hparse hle halong hkind
  obtain ⟨word, tokens, htokens⟩ : ∃ word tokens, other.tokens = word :: tokens :=
    List.exists_cons_of_length_pos hle
  obtain ⟨hcurrent, hother⟩ := halong.current_cons htokens
  change (wordLiteralFrom other.current other.advance.current).parse other.advance = _ at hparse
  change ∃ after, (wordLiteralFrom input.current input.advance.current).parse input.advance = _ ∧ _
  rw [hother] at hparse
  rw [hcurrent]
  by_cases hstring : word.text.toList.head? = some '_'
    ∧ ∃ value, other.advance.current.kind = .string value
  · obtain ⟨hhead, value, hvalue⟩ := hstring
    have hrest := halong.advance_cons htokens
    have hsame := hrest.kind_current.resolve_right (by simp [hvalue])
    obtain ⟨second, others, hsecond⟩ := hrest.exists_cons (by simp [hvalue])
    rw [parse_wordLiteralFrom_string _ hhead hvalue, Prod.mk.injEq, Except.ok.injEq] at hparse
    obtain ⟨rfl, rfl⟩ := hparse
    exact ⟨_, parse_wordLiteralFrom_string _ hhead (hsame.trans hvalue),
      hrest.advance_cons hsecond⟩
  · exact along_wordLiteralFrom htokens halong
      (fun hhead value hvalue => hstring ⟨hhead, value, hvalue⟩) hparse hkind

theorem needs_literal : Needs literal := by
  refine needs_of_current fun token hkind => ?_
  simp only [hkind]
  exact parse_unexpected_ne_ok _

theorem widens_literal : Widens shift 0 afterLiteral literal literal := by
  refine Widens.of_needs (widens_of_current (fun _ => rfl) fun token => ?_) needs_literal
  cases token.kind with
  | string value => exact widens_advance_map _
  | number text => exact widens_advance_map _
  | binary text => exact widens_advance_map _
  | leftParen => exact widens_group.map _
  | identifier name => exact widens_wordLiteral
  | symbol sign =>
      by_cases hsign : sign = '-' ∨ sign = '+'
      · simpa only [hsign, if_true] using widens_signedNumber sign
      · simpa only [hsign, if_false] using widens_unexpected _
  | keyword word =>
      cases word
      case NULL => exact widens_advance_map _
      all_goals exact widens_wordLiteral
  | _ => exact widens_unexpected _

/-! ## Options -/

/-- Where the values of a generated column are kept. -/
def isStorage (kind : TokenKind) : Bool :=
  isWord "VIRTUAL" kind || isWord "STORED" kind

/-- An option of these tokens goes on with the next one. -/
def continues (option : List TokenKind) (next : TokenKind) : Prop :=
  match option with
  | .keyword .UNIQUE :: rest => rest = [] ∧ next = .keyword .KEY
  | .keyword .DEFAULT :: _ | .keyword .ON :: _ => ¬afterLiteral next
  | .keyword .GENERATED :: _ | .keyword .AS :: _ => isStorage next = true
  | _ => False

theorem widens_generatedColumn :
    Widens shift 0 (isStorage · = false) generatedColumn generatedColumn :=
  widens_group.bind fun _ => (widens_eat (by rfl)).map _

theorem widens_behind {α : Type} {least : Nat} {p : Parser α} {follow' : TokenKind → Prop}
    (h : Widens shift 0 follow' p p) (hfollow : ∀ kind, follow kind → follow' kind) :
    Widens shift (least + 1) follow (advance >>= fun _ => p) (advance >>= fun _ => p) :=
  widens_advance_bind ((h.mono hfollow).of_le (Nat.zero_le least))

theorem widens_keywordOption (keyword : Keyword) (rest : List TokenKind) :
    Widens shift (rest.length + 1) (fun next => ¬continues (.keyword keyword :: rest) next)
      (keywordOption keyword) (keywordOption keyword) := by
  unfold keywordOption
  split
  case h_6 => exact widens_behind (Widens.map widens_literal _) fun _ => not_not.mp
  case h_12 =>
    exact widens_behind ((widens_expectKeyword _).bind fun _ => Widens.map widens_literal _)
      fun _ => not_not.mp
  case h_17 =>
    exact widens_behind ((widens_expectKeyword _).bind fun _ => (widens_expectKeyword _).bind
      fun _ => Widens.map widens_generatedColumn _) fun _ => eq_false_of_ne_true
  case h_18 =>
    exact widens_behind (Widens.map widens_generatedColumn _) fun _ => eq_false_of_ne_true
  case h_15 =>
    cases rest with
    | nil => exact widens_behind ((widens_eatKind (by simp)).map _) fun _ h heq => h ⟨rfl, heq⟩
    | cons kind kinds =>
        exact widens_advance_bind
          (((widens_eat_one (· == .keyword .KEY)).map _).of_le (Nat.succ_pos kinds.length))
  case h_1 | h_13 =>
    exact widens_behind ((widens_expectKeyword _).map _) fun _ h => h
  case h_2 | h_3 | h_4 | h_5 | h_7 | h_14 => exact widens_behind (widens_pure _) fun _ h => h
  case h_8 => exact widens_behind (widens_string.map _) fun _ h => h
  case h_9 | h_11 => exact widens_behind (widens_nameOrString.map _) fun _ h => h
  case h_10 =>
    exact widens_behind ((widens_expectKeyword _).bind fun _ => widens_nameOrString.map _)
      fun _ h => h
  case h_16 => exact widens_behind (widens_group.map _) fun _ h => h
  case h_19 => exact (widens_current_bind fun _ => widens_fail _ _).of_le (Nat.succ_pos _)
  case h_20 => exact widens_unexpected _

theorem widens_droppedOption (word : String) :
    Widens shift 1 follow (droppedOption word) (droppedOption word) := by
  unfold droppedOption
  split
  case h_4 => exact widens_behind (widens_number.map _) fun _ h => h
  case h_5 | h_6 => exact widens_behind (widens_name.map _) fun _ h => h
  case h_7 => exact widens_unexpected _
  all_goals exact widens_advance

theorem parse_columnOption_keyword {input : Input} {keyword : Keyword}
    (hkind : input.current.kind = .keyword keyword) :
    columnOption.parse input = (keywordOption keyword).parse input := by
  rw [columnOption, parse_bind, parse_current]
  dsimp only
  rw [hkind]

theorem parse_columnOption_identifier {input : Input} {word : String}
    (hkind : input.current.kind = .identifier word) :
    columnOption.parse input = (droppedOption word >>= fun _ => pure none).parse input := by
  rw [columnOption, parse_bind, parse_current]
  dsimp only
  rw [hkind]

theorem parse_columnOption_cases {input after : Input} {option : Option ColumnOption}
    (hparse : columnOption.parse input = (.ok option, after)) :
    (∃ keyword, input.current.kind = .keyword keyword
        ∧ (keywordOption keyword).parse input = (.ok option, after))
      ∨ ∃ word, input.current.kind = .identifier word
        ∧ (droppedOption word).parse input = (.ok (), after) ∧ option = none := by
  rw [columnOption, parse_bind, parse_current] at hparse
  dsimp only at hparse
  split at hparse
  next keyword hkeyword => exact .inl ⟨keyword, hkeyword, hparse⟩
  next word hword =>
    obtain ⟨_, middle, hdropped, hrest⟩ := exists_of_parse_bind hparse
    obtain ⟨rfl, rfl⟩ : none = option ∧ middle = after := by simpa [parse_pure] using hrest
    exact .inr ⟨word, hword, hdropped, rfl⟩
  next => exact absurd hparse (parse_unexpected_ne_ok _ _ _ _)

/-- An option is read in front of more tokens, if it does not go on with the first of them. -/
theorem along_columnOption {input other next : Input} {back : List Token} {stop : Token}
    {option : Option ColumnOption} (hparse : columnOption.parse other = (.ok option, next))
    (halong : input.Along shift back stop other)
    (hkind : next.tokens = [] →
      ¬continues (other.tokens.map (·.kind)) (kindBehind back stop)) :
    ∃ after, columnOption.parse input = (.ok option, after) ∧ after.Along shift back stop next := by
  have hcases := parse_columnOption_cases hparse
  obtain ⟨token, tokens, htokens⟩ := halong.exists_cons fun hend => by
    simp [hend] at hcases
  obtain ⟨hcurrent, hother⟩ := halong.current_cons htokens
  have hsame : input.current.kind = other.current.kind := by
    rw [hcurrent, hother]
    rfl
  have hle : (tokens.map (·.kind)).length + 1 ≤ other.tokens.length := by simp [htokens]
  rcases hcases with ⟨keyword, hkeyword, -⟩ | ⟨word, hword, -, -⟩
  · rw [parse_columnOption_keyword hkeyword] at hparse
    rw [parse_columnOption_keyword (hsame.trans hkeyword)]
    refine (widens_keywordOption keyword (tokens.map (·.kind))).along hparse hle halong ?_
    rw [htokens, List.map_cons, ← hother, hkeyword] at hkind
    exact hkind
  · rw [parse_columnOption_identifier hword] at hparse
    rw [parse_columnOption_identifier (hsame.trans hword)]
    have hwidens : Widens shift 1 anything (droppedOption word) (droppedOption word) :=
      widens_droppedOption word
    exact (hwidens.map _).along hparse ((Nat.succ_pos _).trans_le hle) halong fun _ => trivial

end SchemaDelta.Sql.Parser
