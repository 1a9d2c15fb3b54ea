import Mathlib.Data.List.TakeWhile
import SchemaDelta.Dialect
import SchemaDelta.Proofs.Lexing.Legible
import SchemaDelta.Proofs.Lexing.Word
import SchemaDelta.Sql.Keyword
import SchemaDelta.Text.Number

/-!
# Tokens as a dialect writes them

Quoted names, string literals, keywords and numbers are whole tokens of the kind
that they are written for.
-/

namespace SchemaDelta.Sql

/-! ## Names and strings -/

theorem scanToken_quoteName {quote : Char} (hquote : isNameQuote quote = true) (name : String)
    {rest : List Char} (hrest : rest.head? ≠ some quote) :
    scanToken ((quoteName quote name).toList ++ rest)
      = .token (.quoted name) (quoteName quote name).toList rest := by
  have hstring : quote ≠ '\x27' := by
    rintro rfl
    exact absurd hquote (by decide)
  have hclose := closeQuoted_double quote name.toList hrest
  simp [quoteName, scanToken, hstring, hquote, hclose, undouble_double]

theorem scanToken_stringLiteral (value : String) {rest : List Char}
    (hrest : rest.head? ≠ some '\x27') :
    scanToken ((stringLiteral value).toList ++ rest)
      = .token (.string value) (stringLiteral value).toList rest := by
  have hclose := closeString_escapeString value.toList hrest
  simp [stringLiteral, scanToken, hclose, unescape_escapeString]

theorem whole_quoteName {quote : Char} (hquote : isNameQuote quote = true) (name : String) :
    Whole (.quoted name) (quoteName quote name).toList := by
  have hscan := scanToken_quoteName hquote name (by simp : ([] : List Char).head? ≠ some quote)
  rwa [List.append_nil] at hscan

theorem whole_stringLiteral (value : String) :
    Whole (.string value) (stringLiteral value).toList := by
  have hscan := scanToken_stringLiteral value (by simp : ([] : List Char).head? ≠ some '\x27')
  rwa [List.append_nil] at hscan

/-! ## Keywords -/

theorem whole_keyword (keyword : Keyword) :
    Whole (.keyword keyword) keyword.spelling.toList := by
  cases keyword <;> rfl

/-! ## Numbers -/

/-- The marks in front of hexadecimal and binary strings are no digits. -/
theorem isDigit_of_mark : ∀ c ∈ ['x', 'X', 'b', 'B'], c.isDigit = false :=
  List.all_iff_forall_prop.mp (by decide)

/-- Nothing but digits is a number. -/
theorem whole_digits {digits : List Char} (hne : digits ≠ [])
    (hdigits : ∀ c ∈ digits, c.isDigit = true) :
    Whole (.number (String.ofList digits)) digits := by
  have hbinary : scanPlainBinary? digits = none := by
    unfold scanPlainBinary?
    split
    next mark c cs =>
      have hmark : mark.isDigit = true := hdigits mark (by simp)
      rw [if_neg]
      rintro ⟨hmem, -⟩
      simp [isDigit_of_mark mark hmem] at hmark
    next => rfl
  have hnumber : scanNumber digits = (digits, []) := by
    have htake := List.takeWhile_eq_self_iff.mpr hdigits
    have hdrop := List.dropWhile_eq_nil_iff.mpr hdigits
    simp [scanNumber, htake, hdrop, scanFraction, scanExponent, scanExponentMark]
  cases digits with
  | nil => exact absurd rfl hne
  | cons c cs =>
      have hc : c.isDigit = true := hdigits c (by simp)
      have hstring : c ≠ '\x27' := by
        rintro rfl
        exact absurd hc (by decide)
      have hquote : isNameQuote c = false := by
        refine Bool.eq_false_iff.mpr fun hquote => ?_
        simp only [isNameQuote, Bool.or_eq_true, decide_eq_true_eq] at hquote
        rcases hquote with rfl | rfl
        all_goals exact absurd hc (by decide)
      have hmark : ¬(c ∈ ['x', 'X', 'b', 'B'] ∧ cs.head? = some '\x27') := by
        rintro ⟨hmem, -⟩
        simp [isDigit_of_mark c hmem] at hc
      simp only [Whole, scanToken, hstring, hquote, hmark, hc, if_false, if_true,
        Bool.false_eq_true, scanNumeric, hbinary, hnumber]
      rfl

theorem isDigit_of_mem_toString {n : Nat} : ∀ c ∈ (toString n).toList, c.isDigit = true := by
  intro c hc
  rw [Nat.toString_eq_repr, Nat.toList_repr] at hc
  exact Nat.isDigit_of_mem_toDigits (by decide) (by decide) hc

theorem toList_toString_ne_nil (n : Nat) : (toString n).toList ≠ [] := by
  rw [Nat.toString_eq_repr, Nat.toList_repr]
  exact Nat.toDigits_ne_nil

theorem whole_toString (n : Nat) : Whole (.number (toString n)) (toString n).toList := by
  have hwhole := whole_digits (toList_toString_ne_nil n) isDigit_of_mem_toString
  rwa [String.ofList_toList] at hwhole

end SchemaDelta.Sql

namespace SchemaDelta.Text

theorem nat?_toString (n : Nat) : nat? (toString n).toList = some n := by
  have hempty : (toString n).toList.isEmpty = false :=
    List.isEmpty_eq_false_iff.mpr (Sql.toList_toString_ne_nil n)
  have hall : (toString n).toList.all Char.isDigit = true :=
    List.all_eq_true.mpr Sql.isDigit_of_mem_toString
  have hvalue : natOfDigits (toString n).toList = n := by
    rw [Nat.toString_eq_repr, Nat.toList_repr]
    exact (Nat.ofDigitChars_eq_foldl).symm.trans Nat.ofDigitChars_ten_toDigits
  rw [nat?, hempty, hall, hvalue]
  rfl

theorem word32?_toString {n : Nat} (h : n ≤ 4294967295) :
    word32? (toString n).toList = some n := by
  rw [word32?, nat?_toString]
  simp [h]

end SchemaDelta.Text
