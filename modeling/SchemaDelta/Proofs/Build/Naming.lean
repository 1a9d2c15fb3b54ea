import Mathlib.Data.List.Nodup
import Mathlib.Order.Bounds.Basic
import SchemaDelta.Build.Table
import SchemaDelta.Proofs.Parsing.DataType
import SchemaDelta.Proofs.Rendering.Token

/-!
# Names that are free

Names are generated by counting up until one is free.  As long as the candidates differ
the count ends, and no candidate is passed over that is free.
-/

namespace SchemaDelta

theorem lowerCase_append (first second : String) :
    lowerCase (first ++ second) = lowerCase first ++ lowerCase second :=
  recase_append first second

theorem toLower_of_isDigit {c : Char} (h : c.isDigit = true) : c.toLower = c := by
  simp only [Char.isDigit, Bool.and_eq_true, decide_eq_true_eq] at h
  unfold Char.toLower
  refine dif_neg fun hupper => ?_
  exact absurd (UInt32.le_trans hupper.1 h.2) (by decide)

/-- Numbers are written without letters. -/
theorem lowerCase_toString (n : Nat) : lowerCase (toString n) = toString n := by
  have hdigits : (toString n).toList.map Char.toLower = (toString n).toList.map id :=
    List.map_congr_left fun c hc => toLower_of_isDigit (Sql.isDigit_of_mem_toString c hc)
  rw [lowerCase, hdigits, List.map_id, String.ofList_toList]

namespace Build

variable {taken : List String} {candidate : Nat → String}

/-- The candidates differ, also when case is ignored. -/
def Apart (candidate : Nat → String) : Prop :=
  Function.Injective fun k => lowerCase (candidate k)

theorem apart_numbered (front : String) : Apart fun n => front ++ toString n := by
  intro m n hsame
  simp only [lowerCase_append, lowerCase_toString] at hsame
  have hdigits : (toString m).toList = (toString n).toList := by
    simpa using congrArg String.toList hsame
  have hvalue := congrArg Text.nat? hdigits
  rw [Text.nat?_toString, Text.nat?_toString] at hvalue
  exact Option.some.inj hvalue

theorem apart_indexNameCandidate (column : String) : Apart (indexNameCandidate column) := by
  -- The column by itself is shorter than all the others.
  have hfirst : ∀ n : Nat, lowerCase column ≠ lowerCase (column ++ "_" ++ toString n) := by
    intro n hsame
    have hlength := congrArg (·.toList.length) hsame
    simp only [lowerCase_append, String.toList_append, List.length_append] at hlength
    have hmark : (lowerCase "_").toList.length = 1 := by decide
    omega
  intro j k hsame
  unfold indexNameCandidate at hsame
  dsimp only at hsame
  split at hsame <;> split at hsame
  next hj hk => rw [hj, hk]
  next => exact absurd hsame (hfirst _)
  next => exact absurd hsame.symm (hfirst _)
  next => exact Nat.succ_injective (apart_numbered (column ++ "_") hsame)

theorem apart_foreignKeyNameCandidate (table : String) :
    Apart (foreignKeyNameCandidate table) :=
  apart_numbered (table ++ "_ibfk_")

theorem Apart.comp {renumber : Nat → Nat} (h : Apart candidate)
    (hrenumber : Function.Injective renumber) : Apart fun k => candidate (renumber k) :=
  fun _ _ hsame => hrenumber (h hsame)

/-- Names that are taken are too few for one more candidate than there are names. -/
theorem Apart.exists_free (h : Apart candidate) (taken : List String) :
    ∃ k ≤ taken.length, lowerCase (candidate k) ∉ taken := by
  by_contra hall
  push Not at hall
  let names := (List.range (taken.length + 1)).map fun k => lowerCase (candidate k)
  have hnodup : names.Nodup := List.nodup_range.map h
  have hsubset : ∀ name ∈ names, name ∈ taken := by
    intro name hname
    obtain ⟨k, hk, rfl⟩ := List.mem_map.mp hname
    exact hall k (Nat.lt_succ_iff.mp (List.mem_range.mp hk))
  have hlength := hnodup.length_le_of_subset hsubset
  rw [List.length_map, List.length_range] at hlength
  exact Nat.not_succ_le_self _ hlength

/-- The number that is found is the first one of a name that is free. -/
theorem Apart.firstFree_isLeast (h : Apart candidate) (taken : List String) :
    IsLeast {k | lowerCase (candidate k) ∉ taken} (firstFree taken candidate) := by
  unfold firstFree
  cases hfound : (List.range taken.length).find? fun k =>
      !taken.contains (lowerCase (candidate k)) with
  | some k =>
      obtain ⟨hfree, hlt, hbefore⟩ := List.find?_range_eq_some.mp hfound
      refine ⟨by simpa using hfree, fun other hother => ?_⟩
      by_contra hsmaller
      have htaken := hbefore other (Nat.lt_of_not_le hsmaller)
      exact hother (by simpa using htaken)
  | none =>
      have htaken : ∀ k < taken.length, lowerCase (candidate k) ∈ taken := by
        intro k hk
        simpa using List.find?_eq_none.mp hfound k (List.mem_range.mpr hk)
      obtain ⟨k, hk, hfree⟩ := h.exists_free taken
      obtain rfl : k = taken.length :=
        Nat.le_antisymm hk (Nat.le_of_not_lt fun hlt => hfree (htaken k hlt))
      refine ⟨hfree, fun other hother => ?_⟩
      exact Nat.le_of_not_lt fun hlt => hother (htaken other hlt)

end Build

end SchemaDelta
