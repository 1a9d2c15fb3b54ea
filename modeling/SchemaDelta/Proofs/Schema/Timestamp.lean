import Mathlib.Data.List.Basic
import Mathlib.Data.List.TakeWhile
import SchemaDelta.Name
import SchemaDelta.Proofs.Schema.Default

/-!
# Spellings of the current timestamp

The current timestamp is written as one of four names, in any case, with or without a
precision in parentheses.  All of these spellings are reduced to one, and every other
expression keeps its text without the blanks at its ends.  What comes out is reduced
already.
-/

namespace SchemaDelta.Text

variable {cs left mid right : List Char}

theorem trim_blanks (hcs : ∀ c ∈ cs, isBlank c = true) : trim cs = [] := by
  rw [trim, trimStart, List.dropWhile_eq_nil_iff.mpr hcs]
  rfl

/-- Padding on both sides is what is trimmed. -/
theorem trim_padded (hleft : ∀ c ∈ left, isBlank c = true) (hright : ∀ c ∈ right, isBlank c = true)
    (hmid : ∀ c ∈ mid, isBlank c = false) : trim (left ++ mid ++ right) = mid := by
  cases mid with
  | nil =>
      refine trim_blanks fun c hc => ?_
      rcases List.mem_append.mp hc with hc | hc
      · exact hleft c (by simpa using hc)
      · exact hright c hc
  | cons c mid =>
      have hc : isBlank c = false := hmid c (by simp)
      have hstart : trimStart (left ++ (c :: mid) ++ right) = (c :: mid) ++ right := by
        rw [trimStart, List.append_assoc, List.dropWhile_append_of_pos hleft, List.cons_append,
          List.dropWhile_cons_of_neg (by simp [hc])]
      have hend : ((c :: mid) ++ right).reverse.dropWhile isBlank = (c :: mid).reverse := by
        rw [List.reverse_append, List.dropWhile_append_of_pos (by simpa using hright)]
        refine Sql.dropWhile_of_head ?_
        cases hlast : (c :: mid).reverse.head? with
        | none => rfl
        | some d =>
            have hd : d ∈ c :: mid := List.mem_reverse.mp (List.mem_of_head? hlast)
            simpa using hmid d hd
      rw [trim, hstart, trimEnd, hend, List.reverse_reverse]

theorem exists_padding (cs : List Char) :
    ∃ left right, cs = left ++ trim cs ++ right ∧ (∀ c ∈ left, isBlank c = true) ∧
      ∀ c ∈ right, isBlank c = true := by
  have hend := List.takeWhile_append_dropWhile (p := isBlank) (l := (trimStart cs).reverse)
  refine ⟨cs.takeWhile isBlank, ((trimStart cs).reverse.takeWhile isBlank).reverse, ?_,
    List.all_eq_true.mp List.all_takeWhile, fun c hc => ?_⟩
  · rw [List.append_assoc, trim, trimEnd, ← List.reverse_append, hend, List.reverse_reverse]
    exact List.takeWhile_append_dropWhile.symm
  · exact List.all_eq_true.mp List.all_takeWhile c (List.mem_reverse.mp hc)

theorem getLast?_trim (cs : List Char) : (trim cs).getLast?.any isBlank = false := by
  rw [trim, trimEnd, List.getLast?_reverse]
  exact Sql.head_of_dropWhile _

theorem head?_trim (cs : List Char) : (trim cs).head?.any isBlank = false := by
  have hstart := Sql.head_of_dropWhile (p := isBlank) cs
  have hend := List.takeWhile_append_dropWhile (p := isBlank) (l := (trimStart cs).reverse)
  rw [← List.reverse_inj, List.reverse_append, List.reverse_reverse] at hend
  change trim cs ++ _ = trimStart cs at hend
  cases htrim : trim cs with
  | nil => rfl
  | cons c rest =>
      rw [htrim, trimStart] at hend
      rw [← hend] at hstart
      simpa using hstart

theorem trim_trim (cs : List Char) : trim (trim cs) = trim cs :=
  trim_eq_self (head?_trim cs) (getLast?_trim cs)

end SchemaDelta.Text

namespace SchemaDelta.DefaultValue

open Text

/-! ## Letters -/

theorem toUpper_eq_self {c : Char} (h : c.toUpper.isUpper = false) : c.toUpper = c := by
  by_cases hbounds : 97 ≤ c.toNat ∧ c.toNat ≤ 122
  · -- what is raised from a small letter is a capital one
    have hpoint : ∀ n ∈ List.range' 97 26, (Char.ofNat n).toUpper.isUpper = true := by decide
    have hupper := hpoint c.toNat (by rw [List.mem_range'_1]; omega)
    rw [Char.ofNat_toNat, h] at hupper
    cases hupper
  · exact dif_neg hbounds

theorem map_toUpper_eq_self {cs : List Char}
    (h : ∀ c ∈ cs.map Char.toUpper, c.isUpper = false) : cs.map Char.toUpper = cs := by
  refine (List.map_congr_left (g := id) fun c hc => ?_).trans (List.map_id cs)
  exact toUpper_eq_self (h _ (List.mem_map_of_mem hc))

theorem not_isUpper_of_isBlank {c : Char} (h : isBlank c = true) : c.isUpper = false := by
  have hpoint := Sql.of_isBlank (p := fun c => !c.isUpper) (by decide) h
  simpa using hpoint

theorem toUpper_of_isBlank {c : Char} (h : isBlank c = true) : c.toUpper = c := by
  have hpoint := Sql.of_isBlank (p := fun c => c.toUpper == c) (by decide) h
  simpa using hpoint

theorem not_isUpper_of_isDigit {c : Char} (h : c.isDigit = true) : c.isUpper = false := by
  simp only [Char.isDigit, Bool.and_eq_true, decide_eq_true_eq] at h
  exact decide_eq_false fun hbounds => absurd (UInt32.le_trans hbounds.1 h.2) (by decide)

/-! ## Spellings -/

/-- The text means the current timestamp, with the digits as its precision. -/
inductive SpellsTimestamp : List Char → List Char → Prop
  /-- A name that stands for a call of itself. -/
  | name {text : List Char} (hname : String.ofList (text.map Char.toUpper) ∈
      ["CURRENT_TIMESTAMP", "LOCALTIMESTAMP", "LOCALTIME"]) : SpellsTimestamp text []
  | call {name gap left digits right : List Char}
      (hname : String.ofList (name.map Char.toUpper) ∈
        ["CURRENT_TIMESTAMP", "LOCALTIMESTAMP", "LOCALTIME", "NOW"])
      (hgap : ∀ c ∈ gap, isBlank c = true) (hleft : ∀ c ∈ left, isBlank c = true)
      (hdigits : ∀ c ∈ digits, c.isDigit = true) (hright : ∀ c ∈ right, isBlank c = true) :
      SpellsTimestamp (name ++ (gap ++ '(' :: (left ++ digits ++ right ++ [')']))) digits

/-- The one spelling that is kept for a precision. -/
def timestampText (digits : List Char) : String :=
  if digits = [] ∨ digits = ['0'] then "CURRENT_TIMESTAMP" else timestampCall digits

theorem parenthesized?_eq_some_iff {call inner : List Char} :
    parenthesized? call = some inner ↔ call = '(' :: (inner ++ [')']) := by
  constructor
  · intro h
    unfold parenthesized? at h
    split at h
    next cs =>
      split at h
      next reversed hreverse =>
        obtain rfl := Option.some.inj h
        rw [List.reverse_eq_cons_iff.mp hreverse]
      next => simp at h
    next => simp at h
  · rintro rfl
    simp [parenthesized?]

theorem timestampWithPrecision?_eq_some_iff {call : List Char} {text : String} :
    timestampWithPrecision? call = some text ↔ ∃ left digits right,
      call = '(' :: (left ++ digits ++ right ++ [')']) ∧ (∀ c ∈ left, isBlank c = true) ∧
        (∀ c ∈ digits, c.isDigit = true) ∧ (∀ c ∈ right, isBlank c = true) ∧
          text = timestampText digits := by
  constructor
  · intro h
    unfold timestampWithPrecision? at h
    split at h
    next precision hprecision =>
      obtain ⟨inner, hinner, rfl⟩ := Option.map_eq_some_iff.mp hprecision
      obtain ⟨left, right, hpadding, hleft, hright⟩ := exists_padding inner
      have hcall := parenthesized?_eq_some_iff.mp hinner
      rw [hpadding] at hcall
      refine ⟨left, trim inner, right, hcall, hleft, ?_, hright, ?_⟩
      · split at h
        next hbare => rcases hbare with hbare | hbare <;> simp [hbare]
        next =>
          split at h
          next hall => exact List.all_eq_true.mp hall
          next => simp at h
      · split at h
        next hbare => rw [timestampText, if_pos hbare, Option.some.inj h]
        next hbare =>
          split at h
          next =>
            rw [timestampText, if_neg hbare]
            exact (Option.some.inj h).symm
          next => simp at h
    next => simp at h
  · rintro ⟨left, digits, right, rfl, hleft, hdigits, hright, rfl⟩
    have htrim := trim_padded hleft hright fun c hc => isBlank_of_isDigit (hdigits c hc)
    have hinner : (parenthesized? ('(' :: (left ++ digits ++ right ++ [')']))).map trim
        = some digits := by
      rw [parenthesized?_eq_some_iff.mpr rfl, Option.map_some, htrim]
    have hall : digits.all Char.isDigit = true := List.all_eq_true.mpr hdigits
    unfold timestampText timestampCall
    simp only [timestampWithPrecision?, hinner, hall, if_true]
    split <;> rfl

/-- No name is found in the beginning of a longer one. -/
theorem findSome?_timestampWords {word : String} {rest : List Char} (hword : word ∈ timestampWords)
    (hrest : rest.head? ≠ some 'S') :
    timestampWords.findSome? (fun name => name.toList.isPrefixOf? (word.toList ++ rest))
      = some rest := by
  simp only [timestampWords, List.mem_cons, List.not_mem_nil, or_false] at hword
  rcases hword with rfl | rfl | rfl | rfl
  · rfl
  · rfl
  · cases rest with
    | nil => rfl
    | cons c rest =>
        have hc : ('S' == c) = false := beq_eq_false_iff_ne.mpr fun h => hrest (h ▸ rfl)
        have hlonger : "LOCALTIMESTAMP".toList.isPrefixOf? ("LOCALTIME".toList ++ c :: rest)
            = if 'S' == c then "TAMP".toList.isPrefixOf? rest else none := rfl
        rw [timestampWords, List.findSome?_cons_of_isNone, List.findSome?_cons_of_isNone]
        · rfl
        · rw [hlonger, hc]
          rfl
        · rfl
  · rfl

/-- A text that is found to begin with a name does so in some case of its letters. -/
theorem exists_name_of_findSome? {cs rest : List Char}
    (h : timestampWords.findSome? (fun name => name.toList.isPrefixOf? (cs.map Char.toUpper))
      = some rest) :
    ∃ name tail, cs = name ++ tail ∧ String.ofList (name.map Char.toUpper) ∈ timestampWords ∧
      tail.map Char.toUpper = rest := by
  obtain ⟨word, hword, hrest⟩ := List.exists_of_findSome?_eq_some h
  have happend := List.isPrefixOf?_eq_some_iff_append_eq.mp hrest
  obtain ⟨name, tail, rfl, hname, htail⟩ := List.map_eq_append_iff.mp happend.symm
  exact ⟨name, tail, rfl, by rwa [hname, String.ofList_toList], htail⟩

theorem findSome?_of_name {name tail : List Char}
    (hname : String.ofList (name.map Char.toUpper) ∈ timestampWords)
    (htail : (tail.map Char.toUpper).head? ≠ some 'S') :
    timestampWords.findSome? (fun word => word.toList.isPrefixOf? ((name ++ tail).map Char.toUpper))
      = some (tail.map Char.toUpper) := by
  have hfound := findSome?_timestampWords hname htail
  rwa [String.toList_ofList, ← List.map_append] at hfound

theorem exists_spells_of_currentTimestamp? {cs : List Char} {text : String}
    (hlast : cs.getLast?.any isBlank = false) (h : currentTimestamp? cs = some text) :
    ∃ digits, SpellsTimestamp cs digits ∧ text = timestampText digits := by
  unfold currentTimestamp? at h
  dsimp only at h
  split at h
  next => cases h
  next rest hrest =>
    obtain ⟨name, tail, rfl, hname, rfl⟩ := exists_name_of_findSome? hrest
    split at h
    next hnil =>
      have hblank : ∀ c ∈ tail.map Char.toUpper, isBlank c = true :=
        List.dropWhile_eq_nil_iff.mp hnil
      rw [map_toUpper_eq_self fun c hc => not_isUpper_of_isBlank (hblank c hc)] at hblank
      -- the last character of the text is no blank
      obtain rfl : tail = [] := by
        rcases List.eq_nil_or_concat tail with rfl | ⟨front, c, rfl⟩
        · rfl
        · rw [List.concat_eq_append, ← List.append_assoc, List.getLast?_concat] at hlast
          simp [hblank c (by simp)] at hlast
      rw [List.append_nil] at h ⊢
      split at h
      next => cases h
      next hnow =>
        refine ⟨[], .name ?_, (Option.some.inj h).symm⟩
        simp only [timestampWords, List.mem_cons, List.not_mem_nil, or_false] at hname ⊢
        rcases hname with hname | hname | hname | hname
        · exact .inl hname
        · exact .inr (.inl hname)
        · exact .inr (.inr hname)
        · rw [← String.toList_inj, String.toList_ofList] at hname
          exact absurd (by rw [hname]; rfl) hnow
    next =>
      obtain ⟨left, digits, right, hcall, hleft, hdigits, hright, rfl⟩ :=
        timestampWithPrecision?_eq_some_iff.mp h
      have hgap : ∀ c ∈ (tail.map Char.toUpper).takeWhile isBlank, isBlank c = true :=
        List.all_eq_true.mp List.all_takeWhile
      have htail : tail.map Char.toUpper = (tail.map Char.toUpper).takeWhile isBlank
          ++ '(' :: (left ++ digits ++ right ++ [')']) := by
        rw [← hcall, trimStart, List.takeWhile_append_dropWhile]
      -- nothing behind the name has a case
      have hself : tail.map Char.toUpper = tail := by
        refine map_toUpper_eq_self fun c hc => ?_
        rw [htail] at hc
        simp only [List.mem_append, List.mem_cons, List.not_mem_nil, or_false] at hc
        rcases hc with hc | rfl | ((hc | hc) | hc) | rfl
        · exact not_isUpper_of_isBlank (hgap c hc)
        · rfl
        · exact not_isUpper_of_isBlank (hleft c hc)
        · exact not_isUpper_of_isDigit (hdigits c hc)
        · exact not_isUpper_of_isBlank (hright c hc)
        · rfl
      rw [hself] at htail hgap
      rw [htail]
      exact ⟨digits, .call hname hgap hleft hdigits hright, rfl⟩

namespace SpellsTimestamp

variable {cs digits : List Char}

theorem currentTimestamp? (h : SpellsTimestamp cs digits) :
    currentTimestamp? cs = some (timestampText digits) := by
  cases h with
  | name hname =>
      have hlisted : String.ofList (cs.map Char.toUpper) ∈ timestampWords :=
        List.mem_append_left ["NOW"] hname
      have hfound := @findSome?_of_name cs [] hlisted (by simp)
      rw [List.append_nil] at hfound
      have hnow : "NOW".toList.isPrefixOf (cs.map Char.toUpper) = false := by
        rw [← String.toList_ofList (l := cs.map Char.toUpper)]
        generalize String.ofList (cs.map Char.toUpper) = word at hname
        simp only [List.mem_cons, List.not_mem_nil, or_false] at hname
        rcases hname with rfl | rfl | rfl <;> rfl
      simp only [DefaultValue.currentTimestamp?, hfound]
      simp only [hnow]
      rfl
  | @call name gap left _ right hname hgap hleft hdigits hright =>
      have hblank : ∀ {cs : List Char}, (∀ c ∈ cs, isBlank c = true) → cs.map Char.toUpper = cs :=
        fun hcs => (List.map_congr_left (g := id) fun c hc => toUpper_of_isBlank (hcs c hc)).trans
          (List.map_id _)
      have hdigit : digits.map Char.toUpper = digits :=
        (List.map_congr_left (g := id) fun c hc => toUpper_of_isDigit (hdigits c hc)).trans
          (List.map_id _)
      have htail : (gap ++ '(' :: (left ++ digits ++ right ++ [')'])).map Char.toUpper
          = gap ++ '(' :: (left ++ digits ++ right ++ [')']) := by
        simp only [List.map_append, List.map_cons, List.map_nil, hblank hgap, hblank hleft,
          hblank hright, hdigit]
        rfl
      have hhead : (gap ++ '(' :: (left ++ digits ++ right ++ [')'])).head? ≠ some 'S' := by
        cases gap with
        | nil => simp
        | cons c gap =>
            intro hc
            obtain rfl : c = 'S' := Option.some.inj hc
            exact absurd (hgap 'S' (by simp)) (by decide)
      have hfound := findSome?_of_name hname (htail.symm ▸ hhead)
      have hstart : trimStart (gap ++ '(' :: (left ++ digits ++ right ++ [')']))
          = '(' :: (left ++ digits ++ right ++ [')']) := by
        rw [trimStart, List.dropWhile_append_of_pos hgap]
        rfl
      simp only [DefaultValue.currentTimestamp?, hfound, htail, hstart]
      exact timestampWithPrecision?_eq_some_iff.mpr
        ⟨left, digits, right, rfl, hleft, hdigits, hright, rfl⟩

theorem isDigit (h : SpellsTimestamp cs digits) : ∀ c ∈ digits, c.isDigit = true := by
  cases h with
  | name => simp
  | call _ _ _ hdigits _ => exact hdigits

theorem bare : SpellsTimestamp "CURRENT_TIMESTAMP".toList [] :=
  .name (by decide)

theorem timestampCall (hdigits : ∀ c ∈ digits, c.isDigit = true) :
    SpellsTimestamp (timestampCall digits).toList digits := by
  have hcall := @SpellsTimestamp.call "CURRENT_TIMESTAMP".toList [] [] digits [] (by decide)
    (by simp) (by simp) hdigits (by simp)
  simpa [toList_timestampCall] using hcall

end SpellsTimestamp

theorem timestampCall_ne_bare (digits : List Char) :
    timestampCall digits ≠ "CURRENT_TIMESTAMP" := by
  intro h
  have hlist := congrArg String.toList h
  rw [toList_timestampCall] at hlist
  exact absurd (List.append_right_eq_self.mp hlist) (by simp)

theorem timestampCall_inj {digits digits' : List Char}
    (h : timestampCall digits = timestampCall digits') :
    digits = digits' := by
  have hlist := congrArg String.toList h
  rw [toList_timestampCall, toList_timestampCall] at hlist
  simpa using hlist

theorem timestampText_cases {cs digits : List Char} (h : SpellsTimestamp cs digits) :
    (digits = [] ∨ digits = ['0']) ∧ timestampText digits = "CURRENT_TIMESTAMP" ∨
      IsPrecision digits ∧ timestampText digits = timestampCall digits := by
  unfold timestampText
  by_cases hbare : digits = [] ∨ digits = ['0']
  · exact .inl ⟨hbare, if_pos hbare⟩
  · rw [not_or] at hbare
    exact .inr ⟨⟨hbare.1, hbare.2, h.isDigit⟩, if_neg (not_or.mpr hbare)⟩

theorem ofExpression_trim (text : String) :
    ofExpression (String.ofList (trim text.toList)) = ofExpression text := by
  rw [ofExpression, ofExpression, String.toList_ofList, trim_trim]

/-- A text either spells the current timestamp, or it is kept. -/
theorem ofExpression_spells (text : String) :
    (∃ digits, SpellsTimestamp (trim text.toList) digits ∧
        ofExpression text = .expression (timestampText digits)) ∨
      (∀ digits, ¬SpellsTimestamp (trim text.toList) digits) ∧
        ofExpression text = .expression (String.ofList (trim text.toList)) := by
  rw [ofExpression]
  cases hcurrent : currentTimestamp? (trim text.toList) with
  | some value =>
      obtain ⟨digits, hspells, rfl⟩ :=
        exists_spells_of_currentTimestamp? (getLast?_trim _) hcurrent
      exact .inl ⟨digits, hspells, congrArg expression (Option.getD_some ..)⟩
  | none =>
      refine .inr ⟨fun digits hspells => ?_, congrArg expression (Option.getD_none ..)⟩
      rw [hspells.currentTimestamp?] at hcurrent
      cases hcurrent

theorem ofExpression_idem (text : String) :
    ofExpression (ofExpression text).text = ofExpression text := by
  rcases ofExpression_spells text with ⟨digits, hspells, hvalue⟩ | ⟨-, hvalue⟩
  · rw [hvalue]
    rcases timestampText_cases hspells with ⟨-, htext⟩ | ⟨hprecision, htext⟩
    · rw [htext]
      decide
    · rw [htext]
      exact hprecision.ofExpression_eq
  · have hkept := ofExpression_trim text
    rw [hvalue] at hkept ⊢
    exact hkept

theorem ofExpression_eq_bare_iff {text : String} :
    ofExpression text = .expression "CURRENT_TIMESTAMP" ↔
      SpellsTimestamp (trim text.toList) [] ∨ SpellsTimestamp (trim text.toList) ['0'] := by
  constructor
  · intro h
    rcases ofExpression_spells text with ⟨digits, hspells, hvalue⟩ | ⟨hnot, hvalue⟩
    · rcases timestampText_cases hspells with ⟨rfl | rfl, -⟩ | ⟨-, htext⟩
      · exact .inl hspells
      · exact .inr hspells
      · rw [h, htext, expression.injEq] at hvalue
        exact absurd hvalue.symm (timestampCall_ne_bare digits)
    · rw [h, expression.injEq] at hvalue
      have hbare := SpellsTimestamp.bare
      rw [hvalue, String.toList_ofList] at hbare
      exact absurd hbare (hnot [])
  · rintro (hspells | hspells) <;>
    · rw [ofExpression, hspells.currentTimestamp?]
      rfl

theorem ofExpression_eq_call_iff {text : String} {digits : List Char} :
    ofExpression text = .expression (timestampCall digits) ∧ digits.all Char.isDigit = true ↔
      SpellsTimestamp (trim text.toList) digits ∧ digits ≠ [] ∧ digits ≠ ['0'] := by
  constructor
  · rintro ⟨h, hdigits⟩
    rcases ofExpression_spells text with ⟨spelled, hspells, hvalue⟩ | ⟨hnot, hvalue⟩
    · rcases timestampText_cases hspells with ⟨-, htext⟩ | ⟨hprecision, htext⟩
      · rw [h, htext, expression.injEq] at hvalue
        exact absurd hvalue (timestampCall_ne_bare digits)
      · rw [h, htext, expression.injEq] at hvalue
        obtain rfl := timestampCall_inj hvalue
        exact ⟨hspells, hprecision.ne_nil, hprecision.ne_zero⟩
    · rw [h, expression.injEq] at hvalue
      have hcall := SpellsTimestamp.timestampCall (List.all_eq_true.mp hdigits)
      rw [hvalue, String.toList_ofList] at hcall
      exact absurd hcall (hnot digits)
  · rintro ⟨hspells, hnil, hzero⟩
    refine ⟨?_, List.all_eq_true.mpr hspells.isDigit⟩
    rw [ofExpression, hspells.currentTimestamp?, Option.getD_some, timestampText,
      if_neg (not_or.mpr ⟨hnil, hzero⟩)]

/-- A default expression is the current timestamp in its one spelling, with a precision unless
that is zero, exactly if its text spells it; any other text is kept up to the blanks at its ends.
What comes out stays as it is. -/
theorem ofExpression_canonical (text : String) :
    ofExpression (ofExpression text).text = ofExpression text ∧
      (ofExpression text = .expression "CURRENT_TIMESTAMP" ↔
        SpellsTimestamp (trim text.toList) [] ∨ SpellsTimestamp (trim text.toList) ['0']) ∧
      (∀ digits : List Char,
        ofExpression text = .expression (timestampCall digits) ∧ digits.all Char.isDigit = true ↔
          SpellsTimestamp (trim text.toList) digits ∧ digits ≠ [] ∧ digits ≠ ['0']) ∧
      ((∃ digits, SpellsTimestamp (trim text.toList) digits) ∨
        ofExpression text = .expression (String.ofList (trim text.toList))) := by
  refine ⟨ofExpression_idem text, ofExpression_eq_bare_iff, fun _ => ofExpression_eq_call_iff, ?_⟩
  rcases ofExpression_spells text with ⟨digits, hspells, -⟩ | ⟨-, hvalue⟩
  · exact .inl ⟨digits, hspells⟩
  · exact .inr hvalue

example : ofExpression " LocalTime\n( 06 ) " = .expression "CURRENT_TIMESTAMP(06)" := by decide

end SchemaDelta.DefaultValue
