import SchemaDelta.Proofs.Parsing.OptionEnd

/-!
# Where data types end

A type without arguments could go on with arguments, and some words with a second one.  Apart
from these, a type ends by itself, whatever follows.
-/

namespace SchemaDelta.Sql

open SchemaDelta.Sql.Parser

/-- The type is not another one when the token follows. -/
def DataType.EndsBefore (dataType : DataType) (next : TokenKind) : Prop :=
  dataType.args = .none → next ≠ .leftParen
    ∧ ∀ word, secondTypeWord? dataType.name = some word → isWord word next = false

namespace Parser

open Input

variable {shift : Nat} {follow : TokenKind → Prop} {input other next middle after : Input}
  {back : List Token} {stop : Token} {name : String} {dataType : DataType}

/-! ## Names -/

/-- No word that asks for a second one holds a blank. -/
theorem secondTypeWord?_pair (first second : String) :
    secondTypeWord? (first ++ " " ++ second) = none := by
  have hspace : ' ' ∈ (lowerCase (first ++ " " ++ second)).toList := by
    unfold lowerCase
    rw [String.toList_ofList]
    exact List.mem_map.mpr ⟨' ', by simp, rfl⟩
  unfold secondTypeWord?
  split
  next heq => simp [heq] at hspace
  next heq => simp [heq] at hspace
  next heq => simp [heq] at hspace
  next => rfl

/-- The name goes on with the token. -/
def asksFor (first : String) (kind : TokenKind) : Prop :=
  ∃ word, secondTypeWord? first = some word ∧ isWord word kind = true

theorem parse_typeWord (hword : isWordKind input.current.kind = true) :
    typeWord.parse input = (.ok input.current.text, input.advance) := by
  rw [typeWord, parse_bind, parse_current]
  dsimp only
  cases hkind : input.current.kind <;> simp [isWordKind, hkind] at hword
  all_goals rfl

theorem isWordKind_of_typeWord (hparse : typeWord.parse input = (.ok name, after)) :
    isWordKind input.current.kind = true := by
  rw [typeWord, parse_bind, parse_current] at hparse
  dsimp only at hparse
  split at hparse
  next hkind => rw [hkind]; rfl
  next hkind => rw [hkind]; rfl
  next => exact absurd hparse (parse_unexpected_ne_ok _ _ _ _)

theorem parse_typeName_pair (hword : isWordKind input.current.kind = true)
    (hasks : asksFor input.current.text input.advance.current.kind) :
    typeName.parse input
      = (.ok (input.current.text ++ " " ++ input.advance.current.text), input.advance.advance) := by
  obtain ⟨word, hsecond, hnext⟩ := hasks
  rw [typeName, parse_bind, parse_typeWord hword]
  simp only [parse_bind, parse_current, hsecond, hnext, if_true, parse_advance, parse_pure]

theorem parse_typeName_word (hword : isWordKind input.current.kind = true)
    (hasks : ¬asksFor input.current.text input.advance.current.kind) :
    typeName.parse input = (.ok input.current.text, input.advance) := by
  rw [typeName, parse_bind, parse_typeWord hword]
  simp only [parse_bind, parse_current]
  split
  next word hsecond =>
    rw [if_neg fun hnext => hasks ⟨word, hsecond, hnext⟩]
    rfl
  next => rfl

theorem parse_typeName_eq_ok_iff :
    typeName.parse input = (.ok name, after) ↔ isWordKind input.current.kind = true
      ∧ (asksFor input.current.text input.advance.current.kind
            ∧ name = input.current.text ++ " " ++ input.advance.current.text
            ∧ after = input.advance.advance
          ∨ ¬asksFor input.current.text input.advance.current.kind
            ∧ name = input.current.text ∧ after = input.advance) := by
  by_cases hword : isWordKind input.current.kind = true
  · by_cases hasks : asksFor input.current.text input.advance.current.kind
    · rw [parse_typeName_pair hword hasks, Prod.mk.injEq, Except.ok.injEq]
      simp only [hword, hasks, true_and, not_true, false_and, or_false]
      exact and_congr eq_comm eq_comm
    · rw [parse_typeName_word hword hasks, Prod.mk.injEq, Except.ok.injEq]
      simp only [hword, hasks, true_and, not_false_eq_true, false_and, false_or]
      exact and_congr eq_comm eq_comm
  · refine iff_of_false (fun hparse => ?_) fun h => hword h.1
    obtain ⟨first, middle, hfirst, -⟩ := exists_of_parse_bind hparse
    exact hword (isWordKind_of_typeWord hfirst)

/-- The name is the same in front of other tokens if it is not one word that goes on. -/
theorem along_typeName (hparse : typeName.parse other = (.ok name, next))
    (h : input.Along shift back stop other)
    (hkind : next.tokens = [] → ¬asksFor name (kindBehind back stop)) :
    ∃ after, typeName.parse input = (.ok name, after) ∧ after.Along shift back stop next := by
  obtain ⟨hword, hcases⟩ := parse_typeName_eq_ok_iff.mp hparse
  obtain ⟨first, tokens, htokens⟩ := h.exists_cons fun hend => by simp [hend, isWordKind] at hword
  obtain ⟨hcurrent, hother⟩ := h.current_cons htokens
  have hrest := h.advance_cons htokens
  have htext : input.current.text = other.current.text := by
    rw [hcurrent, hother]
    rfl
  have hwordKind : isWordKind input.current.kind = true := by
    rw [hcurrent]
    rwa [hother] at hword
  rcases hcases with ⟨hasks, rfl, rfl⟩ | ⟨hasks, rfl, rfl⟩
  · have hne : other.advance.current.kind ≠ .endOfInput := by
      obtain ⟨word, -, hisWord⟩ := hasks
      rintro hend
      simp [hend, isWord] at hisWord
    obtain ⟨second, others, hsecond⟩ := hrest.exists_cons hne
    obtain ⟨hcurrent', hother'⟩ := hrest.current_cons hsecond
    refine ⟨_, parse_typeName_eq_ok_iff.mpr ⟨hwordKind, .inl ⟨?_, ?_, rfl⟩⟩,
      hrest.advance_cons hsecond⟩
    · rw [htext, hrest.kind_current.resolve_right fun hnil => hne hnil.2.2]
      exact hasks
    · rw [htext, hcurrent', hother']
      rfl
  · refine ⟨_, parse_typeName_eq_ok_iff.mpr ⟨hwordKind, .inr ⟨?_, htext.symm, rfl⟩⟩, hrest⟩
    rw [htext]
    rcases hrest.kind_current with heq | ⟨hnil, hbehind, -⟩
    · exact heq ▸ hasks
    · exact hbehind ▸ hkind hnil

theorem advances_typeName : Advances typeName :=
  Parallel.advances (local_typeName : Local 0 typeName)

/-- The name that was read to the end does not go on in front of tokens where it is read again. -/
theorem not_asksFor_of_typeName (hparse : typeName.parse other = (.ok name, next))
    (h : input.Along shift back stop other) (hnil : next.tokens = [])
    (hinput : typeName.parse input = (.ok name, after)) : ¬asksFor name (kindBehind back stop) := by
  obtain ⟨hword, ⟨-, rfl, rfl⟩ | ⟨-, rfl, rfl⟩⟩ := parse_typeName_eq_ok_iff.mp hparse
  · rintro ⟨word, hsecond, -⟩
    rw [secondTypeWord?_pair] at hsecond
    cases hsecond
  · obtain ⟨first, tokens, htokens⟩ := h.exists_cons fun hend => by
      simp [hend, isWordKind] at hword
    obtain ⟨hcurrent, hother⟩ := h.current_cons htokens
    have htext : input.current.text = other.current.text := by
      rw [hcurrent, hother]
      rfl
    have hbehind := ((h.advance_cons htokens).kind_current_nil hnil).1
    obtain ⟨-, ⟨-, heq, -⟩ | ⟨hasks, -, -⟩⟩ := parse_typeName_eq_ok_iff.mp hinput
    · have hlength := congrArg String.length heq
      simp only [htext, String.length_append] at hlength
      have hspace : " ".length = 1 := rfl
      omega
    · rwa [htext, hbehind] at hasks

/-! ## Arguments -/

theorem needs_typeArgument : Needs typeArgument := by
  refine needs_of_current fun token hkind => ?_
  simp only [hkind]
  exact parse_unexpected_ne_ok _

theorem widens_typeArgument : Widens shift 0 follow typeArgument typeArgument := by
  refine Widens.of_needs (widens_of_current (fun _ => rfl) fun token => ?_) needs_typeArgument
  split
  next => exact (widens_number.map _).of_le (Nat.zero_le 1)
  next => exact (widens_string.map _).of_le (Nat.zero_le 1)
  next => exact widens_unexpected _

theorem needs_typeArgsEnd (start : Nat) (arguments : List (Nat ⊕ String)) :
    Needs (typeArgsEnd start arguments) :=
  (needs_expect (by simp) _).bind

theorem widens_typeArgsEnd (start start' : Nat) (arguments : List (Nat ⊕ String)) :
    Widens shift 0 follow (typeArgsEnd start arguments) (typeArgsEnd start' arguments) := by
  refine (widens_expectKind (by simp)).bind fun _ => ?_
  split
  next => exact widens_pure _
  next =>
    refine widens_of_ne_ok fun input after args => ?_
    rw [parse_bind, parse_get]
    simp [parse_fail]

theorem widens_typeArgs : Widens shift 1 follow typeArgs typeArgs := by
  have hsome : ∀ start start' : Nat, Widens shift 0 follow
      (commaSeparated typeArgument >>= typeArgsEnd start)
      (commaSeparated typeArgument >>= typeArgsEnd start') := fun start start' =>
    (widens_commaSeparated widens_typeArgument).bind_of_needs (widens_typeArgsEnd start start')
      (needs_typeArgsEnd start')
  have hneeds : ∀ start, Needs (commaSeparated typeArgument >>= typeArgsEnd start) := fun start =>
    needs_typeArgument.bind.repeatWhile.bind
  refine widens_current_bind fun token =>
    ((widens_expectKind (by simp)).of_le (Nat.zero_le 1)).bind fun _ =>
      (widens_atKind (by simp)).bind_of_needs (fun empty => ?_) fun empty => ?_
  · split
    next => exact widens_typeArgsEnd (shift + token.span.start) token.span.start []
    next => exact hsome _ _
  · split
    next => exact needs_typeArgsEnd token.span.start []
    next => exact hneeds _

theorem ne_none_of_typeArgsOf? {arguments : List (Nat ⊕ String)} {args : TypeArgs}
    (h : typeArgsOf? arguments = some args) : args ≠ .none := by
  rintro rfl
  unfold typeArgsOf? at h
  dsimp only at h
  split at h <;> simp at h

theorem ne_none_of_parse_typeArgsEnd (start : Nat) (arguments : List (Nat ⊕ String))
    {args : TypeArgs} (h : (typeArgsEnd start arguments).parse input = (.ok args, after)) :
    args ≠ .none := by
  obtain ⟨_, middle, -, hrest⟩ := exists_of_parse_bind h
  split at hrest
  next args hargs =>
    obtain ⟨rfl, -⟩ : args = _ ∧ middle = after := by simpa [parse_pure] using hrest
    exact ne_none_of_typeArgsOf? hargs
  next =>
    rw [parse_bind, parse_get] at hrest
    simp [parse_fail] at hrest

theorem ne_none_of_parse_typeArgs {args : TypeArgs}
    (h : typeArgs.parse input = (.ok args, after)) : args ≠ .none := by
  obtain ⟨token, _, -, hrest⟩ := exists_of_parse_bind h
  obtain ⟨_, _, -, hrest⟩ := exists_of_parse_bind hrest
  obtain ⟨empty, middle, -, hrest⟩ := exists_of_parse_bind hrest
  cases empty with
  | true => exact ne_none_of_parse_typeArgsEnd token.span.start [] hrest
  | false =>
      obtain ⟨arguments, _, -, hend⟩ := exists_of_parse_bind hrest
      exact ne_none_of_parse_typeArgsEnd _ arguments hend

/-! ## Types -/

theorem parse_dataType_eq_ok_iff :
    Parser.dataType.parse input = (.ok dataType, after) ↔
      ∃ middle, typeName.parse input = (.ok dataType.name, middle)
        ∧ (middle.current.kind = .leftParen ∧ typeArgs.parse middle = (.ok dataType.args, after)
          ∨ middle.current.kind ≠ .leftParen ∧ dataType.args = .none ∧ after = middle) := by
  obtain ⟨name, args⟩ := dataType
  constructor
  · intro hparse
    obtain ⟨read, middle, hname, hrest⟩ := exists_of_parse_bind hparse
    rw [parse_bind, parse_atKind] at hrest
    dsimp only at hrest
    by_cases hopen : middle.current.kind = .leftParen
    · rw [if_pos (by simp [hopen])] at hrest
      obtain ⟨readArgs, last, hargs, hrest⟩ := exists_of_parse_bind hrest
      obtain ⟨⟨rfl, rfl⟩, rfl⟩ : (read = name ∧ readArgs = args) ∧ last = after := by
        simpa [parse_pure] using hrest
      exact ⟨middle, hname, .inl ⟨hopen, hargs⟩⟩
    · rw [if_neg (by simp [hopen])] at hrest
      obtain ⟨⟨rfl, rfl⟩, rfl⟩ : (read = name ∧ TypeArgs.none = args) ∧ middle = after := by
        simpa [parse_pure] using hrest
      exact ⟨middle, hname, .inr ⟨hopen, rfl, rfl⟩⟩
  · rintro ⟨middle, hname, ⟨hopen, hargs⟩ | ⟨hopen, rfl, rfl⟩⟩
    · rw [Parser.dataType, parse_bind, hname]
      simp only [parse_bind, parse_atKind, hopen, beq_self_eq_true, if_true, hargs, parse_pure]
    · rw [Parser.dataType, parse_bind, hname]
      simp only [parse_bind, parse_atKind, beq_false_of_ne hopen, Bool.false_eq_true, if_false,
        parse_pure]

theorem advances_dataType : Advances Parser.dataType :=
  Parallel.advances (local_dataType : Local 0 Parser.dataType)

/-- A type is read in front of more tokens, if it ends before the first of them. -/
theorem along_dataType (hparse : Parser.dataType.parse other = (.ok dataType, next))
    (h : input.Along shift back stop other)
    (hkind : next.tokens = [] → dataType.EndsBefore (kindBehind back stop)) :
    ∃ after, Parser.dataType.parse input = (.ok dataType, after)
      ∧ after.Along shift back stop next := by
  obtain ⟨middle, hname, hcases⟩ := parse_dataType_eq_ok_iff.mp hparse
  rcases hcases with ⟨hopen, hargs⟩ | ⟨hopen, hnone, rfl⟩
  · have hne : middle.tokens ≠ [] := by
      intro hnil
      rw [current_nil hnil, (advances_typeName _ _ _ hname).stop, h.ends] at hopen
      cases hopen
    obtain ⟨between, hinput, hbetween⟩ := along_typeName hname h fun hnil => absurd hnil hne
    have hwidens : Widens shift 1 anything typeArgs typeArgs := widens_typeArgs
    obtain ⟨after, hinput', hafter⟩ :=
      hwidens.along hargs (List.length_pos_iff.mpr hne) hbetween fun _ => trivial
    have hkinds := hbetween.kind_current.resolve_right fun hnil => hne hnil.1
    exact ⟨after, parse_dataType_eq_ok_iff.mpr
      ⟨between, hinput, .inl ⟨hkinds.trans hopen, hinput'⟩⟩, hafter⟩
  · obtain ⟨between, hinput, hbetween⟩ := along_typeName hname h fun hnil hasks => by
      obtain ⟨word, hsecond, hisWord⟩ := hasks
      rw [(hkind hnil hnone).2 word hsecond] at hisWord
      cases hisWord
    refine ⟨between, parse_dataType_eq_ok_iff.mpr
      ⟨between, hinput, .inr ⟨?_, hnone, rfl⟩⟩, hbetween⟩
    rcases hbetween.kind_current with heq | ⟨hnil, hbehind, -⟩
    · exact heq ▸ hopen
    · exact hbehind ▸ (hkind hnil hnone).1

/-- Only a type that ends before the first of the tokens is read in front of them. -/
theorem endsBefore_of_dataType (hparse : Parser.dataType.parse other = (.ok dataType, next))
    (h : input.Along shift back stop other) (hnil : next.tokens = [])
    (hinput : Parser.dataType.parse input = (.ok dataType, after)) :
    dataType.EndsBefore (kindBehind back stop) := by
  intro hnone
  obtain ⟨middle, hname, hcases⟩ := parse_dataType_eq_ok_iff.mp hparse
  obtain rfl : next = middle := by
    rcases hcases with ⟨-, hargs⟩ | ⟨-, -, rfl⟩
    · exact absurd hnone (ne_none_of_parse_typeArgs hargs)
    · rfl
  -- The name takes the same tokens of both inputs, so both stand where arguments could come.
  obtain ⟨middle', hname', hcases'⟩ := parse_dataType_eq_ok_iff.mp hinput
  have hasks := not_asksFor_of_typeName hname h hnil hname'
  obtain ⟨between, hagain, hbetween⟩ := along_typeName hname h fun _ => hasks
  obtain rfl : between = middle' := by
    rw [hagain] at hname'
    exact (Prod.mk.inj hname').2
  have hopen : between.current.kind ≠ .leftParen := by
    rcases hcases' with ⟨-, hargs⟩ | ⟨hopen, -⟩
    · exact absurd hnone (ne_none_of_parse_typeArgs hargs)
    · exact hopen
  rw [(hbetween.kind_current_nil hnil).1] at hopen
  exact ⟨hopen, fun word hsecond => eq_false_of_ne_true fun hisWord =>
    hasks ⟨word, hsecond, hisWord⟩⟩

end Parser

end SchemaDelta.Sql
