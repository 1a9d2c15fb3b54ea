import SchemaDelta.Proofs.Diff.Delta

/-!
# Lists of named things in order

Sorting things with distinct names puts them in strictly ascending order, and
there is only one such order.
-/

namespace SchemaDelta.Named

variable {α : Type} [Named α]

theorem ascending_sort {items : List α} (h : Distinct items) : Ascending (sort items) := by
  have hle : (sort items).Pairwise fun a b => key a ≤ key b := by
    have htrans : ∀ a b c : α, decide (key a ≤ key b) = true → decide (key b ≤ key c) = true →
        decide (key a ≤ key c) = true := fun a b c hab hbc =>
      decide_eq_true (String.le_trans (of_decide_eq_true hab) (of_decide_eq_true hbc))
    have htotal : ∀ a b : α, (decide (key a ≤ key b) || decide (key b ≤ key a)) = true :=
      fun a b => by simpa using String.le_total (key a) (key b)
    exact (List.pairwise_mergeSort htrans htotal items).imp of_decide_eq_true
  have hdistinct : Distinct (sort items) := h.perm (Delta.sort_perm items).symm
  refine (hle.and hdistinct).imp ?_
  rintro a b ⟨hab, hne⟩
  exact Decidable.byContradiction fun hnot => hne (String.le_antisymm hab (String.not_lt.mp hnot))

theorem Ascending.sublist {items others : List α} (h : Ascending items)
    (hsub : others.Sublist items) : Ascending others :=
  List.Pairwise.sublist hsub h

theorem Ascending.eq_of_perm {items others : List α} (hitems : Ascending items)
    (hothers : Ascending others) (h : items.Perm others) : items = others :=
  List.Perm.eq_of_pairwise
    (fun _ _ _ _ hab hba => absurd (String.lt_trans hab hba) (String.lt_irrefl _)) hitems hothers h

theorem Ascending.sort_eq {items : List α} (h : Ascending items) : sort items = items :=
  (ascending_sort h.distinct).eq_of_perm h (Delta.sort_perm items)

theorem sort_congr {items others : List α} (hitems : Distinct items)
    (h : items.Perm others) : sort items = sort others := by
  refine (ascending_sort hitems).eq_of_perm (ascending_sort (hitems.perm h)) ?_
  exact ((Delta.sort_perm items).trans h).trans (Delta.sort_perm others).symm

theorem sort_filter {items : List α} (h : Distinct items) (keep : α → Bool) :
    sort (items.filter keep) = (sort items).filter keep := by
  refine (ascending_sort (h.sublist List.filter_sublist)).eq_of_perm
    ((ascending_sort h).sublist List.filter_sublist) ?_
  exact (Delta.sort_perm _).trans ((Delta.sort_perm items).symm.filter keep)

/-- Items with keys of their own may be inserted in either order. -/
theorem Ascending.insert_comm {items : List α} (h : Ascending items) {a b : α}
    (ha : lookup items (key a) = none) (hb : lookup items (key b) = none)
    (hne : key a ≠ key b) : insert b (insert a items) = insert a (insert b items) := by
  have hinserted : ∀ {a b : α}, lookup items (key a) = none → lookup items (key b) = none →
      key a ≠ key b → Ascending (insert b (insert a items)) := by
    intro a b ha hb hne
    refine ascending_insert (ascending_insert h ha) ?_
    rw [lookup_insert h.distinct ha, Function.update_of_ne hne.symm, hb]
  have hperm : ∀ a b : α, (insert b (insert a items)).Perm (b :: a :: items) := fun a b =>
    (insert_perm b _).trans ((insert_perm a items).cons b)
  refine (hinserted ha hb hne).eq_of_perm (hinserted hb ha hne.symm) ?_
  exact (hperm a b).trans ((List.Perm.swap a b items).trans (hperm b a).symm)

theorem Distinct.nodup {items : List α} (h : Distinct items) : items.Nodup :=
  List.Pairwise.imp (fun hne heq => hne (congrArg key heq)) h

end SchemaDelta.Named
