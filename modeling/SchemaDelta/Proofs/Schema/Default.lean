import SchemaDelta.Proofs.Lexing.Legible
import SchemaDelta.Schema.DefaultValue

/-!
# Canonical expressions

The spelling that stands for the current timestamp stands for itself, so that an
expression is in its canonical spelling once and for all.
-/

namespace SchemaDelta.Text

theorem trim_eq_self {cs : List Char} (hfirst : cs.head?.any isBlank = false)
    (hlast : cs.getLast?.any isBlank = false) : trim cs = cs := by
  have hstart : ∀ cs : List Char, cs.head?.any isBlank = false → cs.dropWhile isBlank = cs := by
    intro cs hcs
    cases cs with
    | nil => rfl
    | cons c cs =>
        have hc : isBlank c = false := by simpa using hcs
        simp [hc]
  rw [trim, trimStart, hstart cs hfirst, trimEnd, hstart cs.reverse, List.reverse_reverse]
  rwa [List.head?_reverse]

end SchemaDelta.Text

namespace SchemaDelta.DefaultValue

/-- The precisions that are part of the canonical spelling. -/
structure IsPrecision (digits : List Char) : Prop where
  ne_nil : digits ≠ []
  ne_zero : digits ≠ ['0']
  isDigit : ∀ c ∈ digits, c.isDigit = true

def timestampCall (digits : List Char) : String :=
  "CURRENT_TIMESTAMP(" ++ String.ofList digits ++ ")"

theorem toList_timestampCall (digits : List Char) :
    (timestampCall digits).toList = "CURRENT_TIMESTAMP".toList ++ '(' :: (digits ++ [')']) := by
  have hdigits : (String.ofList digits).toList = digits := String.toList_ofList
  have hopen : "CURRENT_TIMESTAMP(".toList = "CURRENT_TIMESTAMP".toList ++ ['('] := by
    decide +kernel
  delta timestampCall
  rw [String.toList_append, String.toList_append, hdigits, hopen, List.append_assoc,
    List.append_assoc]
  rfl

theorem timestampWithPrecision?_eq_some {call : List Char} {text : String}
    (h : timestampWithPrecision? call = some text) :
    text = "CURRENT_TIMESTAMP" ∨ ∃ digits, IsPrecision digits ∧ text = timestampCall digits := by
  unfold timestampWithPrecision? at h
  split at h
  next precision _ =>
    split at h
    next => exact .inl (Option.some.inj h).symm
    next hzero =>
      split at h
      next hdigits =>
        rw [not_or] at hzero
        exact .inr ⟨precision, ⟨hzero.1, hzero.2, List.all_eq_true.mp hdigits⟩,
          (Option.some.inj h).symm⟩
      next => simp at h
  next => simp at h

theorem currentTimestamp?_eq_some {cs : List Char} {text : String}
    (h : currentTimestamp? cs = some text) :
    text = "CURRENT_TIMESTAMP" ∨ ∃ digits, IsPrecision digits ∧ text = timestampCall digits := by
  unfold currentTimestamp? at h
  dsimp only at h
  split at h
  next => simp at h
  next =>
    split at h
    next =>
      split at h
      next => simp at h
      next => exact .inl (Option.some.inj h).symm
    next => exact timestampWithPrecision?_eq_some h

theorem toUpper_of_isDigit {c : Char} (h : c.isDigit = true) : c.toUpper = c := by
  unfold Char.toUpper
  rw [dif_neg]
  intro hbounds
  simp only [Char.isDigit, Bool.and_eq_true, decide_eq_true_eq] at h
  exact absurd (UInt32.le_trans hbounds.1 h.2) (by decide)

theorem isBlank_of_isDigit {c : Char} (h : c.isDigit = true) : Text.isBlank c = false :=
  Sql.not_isBlank_of_startsToken (by simp [Sql.startsToken, h])

theorem IsPrecision.currentTimestamp? {digits : List Char} (h : IsPrecision digits) :
    currentTimestamp? (timestampCall digits).toList = some (timestampCall digits) := by
  have htrim : Text.trim digits = digits := by
    refine Text.trim_eq_self ?_ ?_
    · cases hhead : digits.head? with
      | none => rfl
      | some c => simpa using isBlank_of_isDigit (h.isDigit c (List.mem_of_head? hhead))
    · cases hlast : digits.getLast? with
      | none => rfl
      | some c => simpa using isBlank_of_isDigit (h.isDigit c (List.mem_of_getLast? hlast))
  have hupper : digits.map Char.toUpper = digits := by
    refine (List.map_congr_left (g := id) fun c hc => ?_).trans (List.map_id digits)
    exact toUpper_of_isDigit (h.isDigit c hc)
  have hinner : (parenthesized? ('(' :: (digits ++ [')']))).map Text.trim = some digits := by
    simp [parenthesized?, htrim]
  have hcall : timestampWithPrecision? ('(' :: (digits ++ [')']))
      = some (timestampCall digits) := by
    have hzero : ¬(digits = [] ∨ digits = ['0']) := not_or.mpr ⟨h.ne_nil, h.ne_zero⟩
    have hall : digits.all Char.isDigit = true := List.all_eq_true.mpr h.isDigit
    simp only [timestampWithPrecision?, hinner, if_neg hzero, hall, if_true]
    rfl
  have htext : (timestampCall digits).toList.map Char.toUpper
      = "CURRENT_TIMESTAMP".toList ++ '(' :: (digits ++ [')']) := by
    rw [toList_timestampCall, List.map_append, List.map_cons, List.map_append, hupper]
    rfl
  have hprefix : timestampWords.findSome? (fun word => word.toList.isPrefixOf?
      ("CURRENT_TIMESTAMP".toList ++ '(' :: (digits ++ [')'])))
        = some ('(' :: (digits ++ [')'])) := by
    rfl
  have hstart : Text.trimStart ('(' :: (digits ++ [')'])) = '(' :: (digits ++ [')']) := rfl
  unfold DefaultValue.currentTimestamp?
  simp only [htext, hprefix, hstart, hcall]

/-- An expression without blanks at its ends is spelled canonically when it does not
mean the current timestamp. -/
theorem ofExpression_eq {text : String} (htrim : Text.trim text.toList = text.toList) :
    ofExpression text = .expression ((currentTimestamp? text.toList).getD text) := by
  rw [ofExpression, htrim, String.ofList_toList]

/-- A canonical spelling is kept. -/
theorem IsPrecision.ofExpression_eq {digits : List Char} (h : IsPrecision digits) :
    ofExpression (timestampCall digits) = .expression (timestampCall digits) := by
  have htrim : Text.trim (timestampCall digits).toList = (timestampCall digits).toList := by
    rw [toList_timestampCall]
    refine Text.trim_eq_self rfl ?_
    rw [← List.cons_append, ← List.append_assoc, List.getLast?_concat]
    rfl
  rw [DefaultValue.ofExpression_eq htrim, h.currentTimestamp?]
  rfl

/-- The canonical spelling of the current timestamp is one of two sorts. -/
theorem ofExpression_cases (text : String) (htrim : Text.trim text.toList = text.toList) :
    ofExpression text = .expression text
      ∨ ofExpression text = .expression "CURRENT_TIMESTAMP"
      ∨ ∃ digits, IsPrecision digits ∧ ofExpression text = .expression (timestampCall digits) := by
  rw [ofExpression_eq htrim]
  cases h : DefaultValue.currentTimestamp? text.toList with
  | none => exact .inl rfl
  | some canonical =>
      rcases currentTimestamp?_eq_some h with rfl | ⟨digits, hdigits, rfl⟩
      · exact .inr (.inl rfl)
      · exact .inr (.inr ⟨digits, hdigits, rfl⟩)

end SchemaDelta.DefaultValue
