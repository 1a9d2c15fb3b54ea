import SchemaDelta.Proofs.Parsing.OptionEnd

/-!
# Runs of column options

Options are read one after the other up to what ends them.  A run can be cut between two
options, and two runs can be put together: the parser reads the same options either way.
-/

namespace SchemaDelta.Sql.Parser

open Input

variable {shift : Nat} {input other middle after next : Input} {back : List Token} {stop : Token}
  {option : Option ColumnOption} {options earlier later : List ColumnOption}

/-! ## Single options -/

/-- The parser reads the current token. -/
def TakesCurrent {α : Type} (p : Parser α) : Prop :=
  ∀ {input after a}, p.parse input = (.ok a, after) → input.advance.Follows after

theorem takesCurrent_advance_bind {α : Type} {f : Unit → Parser α} (h : Local 0 (f ())) :
    TakesCurrent (advance >>= f) := by
  intro input after a hparse
  rw [parse_bind, parse_advance] at hparse
  exact h.advances _ _ _ hparse

theorem takesCurrent_of_ne_ok {α : Type} {p : Parser α}
    (h : ∀ input after a, p.parse input ≠ (.ok a, after)) : TakesCurrent p := fun hparse =>
  absurd hparse (h _ _ _)

theorem takesCurrent_keywordOption (keyword : Keyword) : TakesCurrent (keywordOption keyword) := by
  unfold keywordOption
  split
  case h_6 => exact takesCurrent_advance_bind (local_literal.map _)
  case h_1 | h_13 => exact takesCurrent_advance_bind ((local_expectKeyword _).map _)
  case h_2 | h_3 | h_4 | h_5 | h_7 | h_14 =>
    exact takesCurrent_advance_bind (f := fun _ => pure _) (parallel_pure rfl)
  case h_8 => exact takesCurrent_advance_bind (local_string.map _)
  case h_9 | h_11 => exact takesCurrent_advance_bind (local_nameOrString.map _)
  case h_10 =>
    exact takesCurrent_advance_bind ((local_expectKeyword _).bind fun _ =>
      local_nameOrString.map _)
  case h_12 =>
    exact takesCurrent_advance_bind ((local_expectKeyword _).bind fun _ => local_literal.map _)
  case h_15 => exact takesCurrent_advance_bind ((local_eatKind _).map _)
  case h_16 => exact takesCurrent_advance_bind (local_group.map _)
  case h_17 =>
    exact takesCurrent_advance_bind ((local_expectKeyword _).bind fun _ =>
      (local_expectKeyword _).bind fun _ => local_generatedColumn.map _)
  case h_18 => exact takesCurrent_advance_bind (local_generatedColumn.map _)
  case h_19 =>
    exact takesCurrent_of_ne_ok fun input after a => by simp [parse_bind, parse_current, parse_fail]
  case h_20 => exact takesCurrent_of_ne_ok (parse_unexpected_ne_ok _)

theorem takesCurrent_droppedOption (word : String) : TakesCurrent (droppedOption word) := by
  unfold droppedOption
  split
  case h_4 => exact takesCurrent_advance_bind (local_number.map _)
  case h_5 | h_6 => exact takesCurrent_advance_bind (local_name.map _)
  case h_7 => exact takesCurrent_of_ne_ok (parse_unexpected_ne_ok _)
  all_goals exact fun hparse => (Prod.mk.inj hparse).2 ▸ .refl _

theorem advances_columnOption : Advances columnOption :=
  Parallel.advances (local_columnOption : Local 0 columnOption)

theorem follows_advance_of_columnOption (hparse : columnOption.parse input = (.ok option, after)) :
    input.advance.Follows after := by
  obtain ⟨keyword, -, hkeyword⟩ | ⟨word, -, hword, -⟩ := parse_columnOption_cases hparse
  · exact takesCurrent_keywordOption keyword hkeyword
  · exact takesCurrent_droppedOption word hword

theorem not_endsOptions_of_columnOption (hparse : columnOption.parse input = (.ok option, after)) :
    endsOptions input.current.kind = false := by
  obtain ⟨keyword, hkind, -⟩ | ⟨word, hkind, -, -⟩ := parse_columnOption_cases hparse
  · rw [hkind]
    rfl
  · rw [hkind]
    rfl

theorem consumes_columnOption : Consumes columnOption := by
  intro input after option hstop hparse
  have hends := not_endsOptions_of_columnOption hparse
  have hfollows := (follows_advance_of_columnOption hparse).length_le
  obtain ⟨source, tokens, stop, last⟩ := input
  cases tokens with
  | nil =>
      have hkind : endsOptions stop.kind = false := hends
      cases hcases : stop.kind <;> simp [Segment.isTerminator, endsOptions, hcases] at hstop hkind
  | cons token tokens => exact Nat.lt_succ_of_le hfollows

/-- No option begins with the word that may end a generated column. -/
theorem parse_droppedOption_ne_ok {word : String} (h : isStorage (.identifier word) = true)
    (input after : Input) : (droppedOption word).parse input ≠ (.ok (), after) := by
  have hsame : ∀ {other}, sameName word other = true → upperCase word = upperCase other := by
    intro other hname
    rw [← upperCase_recase Sql.changesCase_toLower word,
      ← upperCase_recase Sql.changesCase_toLower other]
    exact congrArg upperCase (sameName_iff.mp hname)
  have hvirtual : upperCase "VIRTUAL" = "VIRTUAL" := by decide
  have hstored : upperCase "STORED" = "STORED" := by decide
  have hupper : upperCase word = "VIRTUAL" ∨ upperCase word = "STORED" :=
    (Bool.or_eq_true_iff.mp h).imp (fun hname => (hsame hname).trans hvirtual) fun hname =>
      (hsame hname).trans hstored
  unfold droppedOption
  rcases hupper with hupper | hupper
  · rw [hupper]
    exact parse_unexpected_ne_ok _ _ _ _
  · rw [hupper]
    exact parse_unexpected_ne_ok _ _ _ _

/-- No option goes on with what an option begins with, but `UNIQUE` with `KEY`. -/
theorem eq_unique_of_continues {kinds : List TokenKind}
    (hparse : columnOption.parse input = (.ok option, after))
    (hcontinues : continues kinds input.current.kind) :
    kinds = [.keyword .UNIQUE] ∧ input.current.kind = .keyword .KEY := by
  have hliteral : afterLiteral input.current.kind := by
    obtain ⟨keyword, hkind, -⟩ | ⟨word, hkind, -, -⟩ := parse_columnOption_cases hparse
    · simp [afterLiteral, hkind]
    · simp [afterLiteral, hkind]
  have hstorage : isStorage input.current.kind = false := by
    refine eq_false_of_ne_true fun hstorage => ?_
    obtain ⟨keyword, hkind, -⟩ | ⟨word, hkind, hword, -⟩ := parse_columnOption_cases hparse
    · simp [isStorage, isWord, hkind] at hstorage
    · exact parse_droppedOption_ne_ok (hkind ▸ hstorage) _ _ hword
  unfold continues at hcontinues
  split at hcontinues
  case h_1 => exact ⟨congrArg _ hcontinues.1, hcontinues.2⟩
  case h_2 | h_3 => exact absurd hliteral hcontinues
  case h_4 | h_5 => simp [hstorage] at hcontinues
  case h_6 => exact hcontinues.elim

/-- The parser gives an option that has a counterpart in the model. -/
def GivesSome (p : Parser (Option ColumnOption)) : Prop :=
  ∀ input after, p.parse input ≠ (.ok none, after)

theorem givesSome_pure (option : ColumnOption) : GivesSome (pure (some option)) := by
  simp [GivesSome, parse_pure]

theorem GivesSome.behind {α : Type} {p : Parser α} {f : α → Parser (Option ColumnOption)}
    (h : ∀ a, GivesSome (f a)) : GivesSome (p >>= f) := by
  intro input after hparse
  obtain ⟨a, middle, -, hrest⟩ := exists_of_parse_bind hparse
  exact h a _ _ hrest

theorem exists_of_continues {kinds : List TokenKind} {kind : TokenKind}
    (h : continues kinds kind) :
    ∃ keyword rest, kinds = .keyword keyword :: rest ∧ GivesSome (keywordOption keyword) := by
  unfold continues at h
  split at h
  case h_1 | h_2 | h_5 =>
    exact ⟨_, _, rfl, .behind fun _ => .behind fun _ => givesSome_pure _⟩
  case h_3 => exact ⟨_, _, rfl, .behind fun _ => .behind fun _ => .behind fun _ => givesSome_pure _⟩
  case h_4 =>
    exact ⟨_, _, rfl, .behind fun _ => .behind fun _ => .behind fun _ => .behind fun _ =>
      givesSome_pure _⟩
  case h_6 => exact h.elim

/-- Only options that have a counterpart in the model go on. -/
theorem not_continues_of_none (hparse : columnOption.parse input = (.ok none, after))
    (kind : TokenKind) : ¬continues (input.tokens.map (·.kind)) kind := by
  intro hcontinues
  obtain ⟨keyword, rest, hkinds, hsome⟩ := exists_of_continues hcontinues
  obtain ⟨token, tokens, htokens, hkeyword, -⟩ := List.map_eq_cons_iff.mp hkinds
  have hcurrent : input.current.kind = .keyword keyword := by
    rw [Input.current, htokens]
    exact hkeyword
  obtain ⟨_, hkind, hoption⟩ | ⟨word, hkind, -, -⟩ := parse_columnOption_cases hparse
  · cases hcurrent.symm.trans hkind
    exact hsome _ _ hoption
  · cases hcurrent.symm.trans hkind

/-! ## Runs -/

/-- Options that are read one after the other, and what is left behind the last one. -/
inductive ReadsOptions : Input → List ColumnOption → Input → Prop
  | done (input : Input) : ReadsOptions input [] input
  | next {input middle after : Input} {option : Option ColumnOption} {options : List ColumnOption}
      (hparse : columnOption.parse input = (.ok option, middle))
      (hrest : ReadsOptions middle options after) :
      ReadsOptions input (option.toList ++ options) after

namespace ReadsOptions

theorem follows (h : ReadsOptions input options after) : input.Follows after := by
  induction h with
  | done input => exact .refl input
  | next hparse _ ih => exact (advances_columnOption _ _ _ hparse).trans ih

theorem append (h : ReadsOptions input earlier middle) (hrest : ReadsOptions middle later after) :
    ReadsOptions input (earlier ++ later) after := by
  induction h with
  | done => exact hrest
  | next hparse _ ih =>
      rw [List.append_assoc]
      exact .next hparse (ih hrest)

/-- A run up to the end of the options goes on from where a shorter one stopped. -/
theorem exists_rest (h : ReadsOptions input earlier middle)
    (hwhole : ReadsOptions input options after) (hends : endsOptions after.current.kind = true) :
    ∃ later, options = earlier ++ later ∧ ReadsOptions middle later after := by
  induction h generalizing options with
  | done => exact ⟨options, rfl, hwhole⟩
  | next hparse _ ih =>
      cases hwhole with
      | done => simp [not_endsOptions_of_columnOption hparse] at hends
      | next hparse' hrest =>
          rw [hparse] at hparse'
          obtain ⟨rfl, rfl⟩ := hparse'
          obtain ⟨later, rfl, hlater⟩ := ih hrest
          exact ⟨later, by simp, hlater⟩

/-- The last of the options does not go on with the token. -/
def EndsBefore (input : Input) (options : List ColumnOption) (after : Input)
    (kind : TokenKind) : Prop :=
  ∀ front last option earlier, input.tokens = front ++ last.tokens →
    options = earlier ++ option.toList → columnOption.parse last = (.ok option, after) →
      ¬continues (last.tokens.map (·.kind)) kind

theorem EndsBefore.rest {kind : TokenKind}
    (h : EndsBefore input (option.toList ++ options) after kind)
    (hfollows : input.Follows middle) : EndsBefore middle options after kind := by
  intro front last option' earlier htokens hoptions
  obtain ⟨read, hread, -⟩ := hfollows.read
  refine h (read ++ front) last option' (option.toList ++ earlier) ?_ ?_
  · rw [hread, htokens, List.append_assoc]
  · rw [hoptions, List.append_assoc]

/-- The options are read in front of more tokens, if the last one ends before the first of them. -/
theorem along (h : ReadsOptions other options next) (halong : input.Along shift back stop other)
    (hkind : next.tokens = [] → EndsBefore other options next (kindBehind back stop)) :
    ∃ after, ReadsOptions input options after ∧ after.Along shift back stop next := by
  induction h generalizing input with
  | done => exact ⟨input, .done input, halong⟩
  | @next other middle next option options hparse hrest ih =>
      have hfollows := advances_columnOption _ _ _ hparse
      -- Only the last option meets what comes behind the tokens of both inputs.
      have hlast : middle.tokens = [] →
          ¬continues (other.tokens.map (·.kind)) (kindBehind back stop) := by
        intro hnil
        cases hrest with
        | done => exact hkind hnil [] other option [] rfl (by simp) hparse
        | next hparse' =>
            have hend : middle.current.kind = .endOfInput := by
              rw [current_nil hnil, hfollows.stop]
              exact halong.ends
            have hends := not_endsOptions_of_columnOption hparse'
            rw [hend] at hends
            cases hends
      obtain ⟨between, hinput, hbetween⟩ := along_columnOption hparse halong hlast
      obtain ⟨after, hafter, hnext⟩ := ih hbetween fun hnil => (hkind hnil).rest hfollows
      exact ⟨after, .next hinput hafter, hnext⟩

end ReadsOptions

/-! ## All options -/

def optionStep : Parser (Option ColumnOption × Bool) := do
  if endsOptions (← current).kind then
    return (none, false)
  else
    return (← columnOption, true)

theorem parse_optionStep (input : Input) : optionStep.parse input =
    if endsOptions input.current.kind = true then (.ok (none, false), input)
    else match columnOption.parse input with
      | (.ok option, after) => (.ok (option, true), after)
      | (.error error, after) => (.error error, after) := by
  rw [optionStep, parse_bind, parse_current]
  dsimp only
  split
  next => rfl
  next =>
    rw [parse_bind]
    cases columnOption.parse input with
    | mk result after => cases result <;> rfl

theorem optionStep_cases {more : Bool}
    (hparse : optionStep.parse input = (.ok (option, more), after)) :
    endsOptions input.current.kind = true ∧ option = none ∧ more = false ∧ input = after
      ∨ columnOption.parse input = (.ok option, after) ∧ more = true := by
  rw [parse_optionStep] at hparse
  by_cases hends : endsOptions input.current.kind = true
  · rw [if_pos hends] at hparse
    obtain ⟨⟨rfl, rfl⟩, rfl⟩ : (none = option ∧ false = more) ∧ input = after := by
      simpa using hparse
    exact .inl ⟨hends, rfl, rfl, rfl⟩
  · rw [if_neg hends] at hparse
    split at hparse
    next read last hoption =>
      obtain ⟨⟨rfl, rfl⟩, rfl⟩ : (read = option ∧ true = more) ∧ last = after := by
        simpa using hparse
      exact .inr ⟨hoption, rfl⟩
    next => simp at hparse

theorem readsOptions_of_repeatFrom {read : List (Option ColumnOption)}
    (hstop : Segment.isTerminator input.stop = true)
    (hparse : repeatFrom optionStep input = (.ok read, after)) :
    ReadsOptions input (read.filterMap id) after ∧ endsOptions after.current.kind = true := by
  fun_induction repeatFrom optionStep input generalizing read after with
  | case1 => simp at hparse
  | case2 input option last hlast =>
      obtain ⟨rfl, rfl⟩ : [option] = read ∧ last = after := by simpa using hparse
      obtain ⟨hends, rfl, -, rfl⟩ | ⟨-, hmore⟩ := optionStep_cases hlast
      · exact ⟨.done input, hends⟩
      · cases hmore
  | case3 input option middle hmiddle hshorter rest last hrest ih =>
      obtain ⟨-, -, hmore, -⟩ | ⟨hoption, -⟩ := optionStep_cases hmiddle
      · cases hmore
      · have hfollows := advances_columnOption _ _ _ hoption
        cases rest with
        | error => simp [Except.map] at hparse
        | ok rest =>
            obtain ⟨rfl, rfl⟩ : option :: rest = read ∧ last = after := by
              simpa [Except.map] using hparse
            obtain ⟨hreads, hends⟩ := ih (hfollows.stop ▸ hstop) hrest
            refine ⟨?_, hends⟩
            have hnext : ReadsOptions input (option.toList ++ rest.filterMap id) last :=
              .next hoption hreads
            cases option <;> exact hnext
  | case4 input option last hlast hshorter =>
      -- An option that is read takes a token, so the loop never stops here.
      obtain ⟨-, -, hmore, -⟩ | ⟨hoption, -⟩ := optionStep_cases hlast
      · cases hmore
      · exact absurd (consumes_columnOption hstop hoption) hshorter

theorem advances_columnOptions : Advances columnOptions :=
  Parallel.advances (local_columnOptions : Local 0 columnOptions)

/-- All options are a run up to what ends them. -/
theorem parse_columnOptions_eq_ok_iff (hstop : Segment.isTerminator input.stop = true) :
    columnOptions.parse input = (.ok options, after) ↔
      ReadsOptions input options after ∧ endsOptions after.current.kind = true := by
  constructor
  · intro hparse
    obtain ⟨read, middle, hread, hrest⟩ := exists_of_parse_bind hparse
    obtain ⟨rfl, rfl⟩ : read.filterMap id = options ∧ middle = after := by
      simpa [parse_pure] using hrest
    exact readsOptions_of_repeatFrom hstop hread
  · rintro ⟨hreads, hends⟩
    have hread : ∃ read, (repeatWhile optionStep).parse input = (.ok read, after)
        ∧ read.filterMap id = options := by
      induction hreads with
      | done input =>
          refine ⟨[none], parse_repeatWhile_false ?_, rfl⟩
          rw [parse_optionStep, if_pos hends]
      | @next input middle after option options hparse hrest ih =>
          have hfollows := advances_columnOption _ _ _ hparse
          obtain ⟨read, hread, rfl⟩ := ih (hfollows.stop ▸ hstop) hends
          have hconsumed := consumes_columnOption hstop hparse
          refine ⟨option :: read, parse_repeatWhile_true ?_ hconsumed hread, ?_⟩
          · rw [parse_optionStep, if_neg (by simp [not_endsOptions_of_columnOption hparse]), hparse]
          · cases option <;> rfl
    obtain ⟨read, hread, rfl⟩ := hread
    change (repeatWhile optionStep >>= fun read => pure (read.filterMap id)).parse input = _
    rw [parse_bind, hread]
    rfl

end SchemaDelta.Sql.Parser
