import Mathlib.Data.List.Nodup
import SchemaDelta.Proofs.Diff.Schema

/-!
# Mates by rank

When being mates is symmetric and transitive, the things that have mates fall
into classes.  Within a class the greedy pairing is by rank: the first removed
thing goes with the first added one, the second with the second, and one side of
the class is left with nothing.  So nothing depends on which side is looked
through first.
-/

namespace SchemaDelta

variable {α : Type}

def Change.swap (change : Change α) : Change α :=
  ⟨change.new, change.old⟩

/-- Two lists of pairs without doubles are the same pairs with the sides exchanged
when each has the exchanged pairs of the other. -/
theorem Change.perm_map_swap {pairs others : List (Change α)} (hpairs : pairs.Nodup)
    (hothers : others.Nodup) (hto : ∀ change ∈ pairs, change.swap ∈ others)
    (hfrom : ∀ change ∈ others, change.swap ∈ pairs) : others.Perm (pairs.map Change.swap) := by
  have hinjective : Function.Injective (Change.swap (α := α)) := fun a b hab => by
    cases a
    cases b
    cases hab
    rfl
  refine (List.perm_ext_iff_of_nodup hothers (hpairs.map hinjective)).mpr fun change => ?_
  rw [List.mem_map]
  constructor
  · exact fun hmem => ⟨change.swap, hfrom change hmem, rfl⟩
  · rintro ⟨other, hmem, rfl⟩
    exact hto other hmem

/-- Being mates is symmetric and transitive.  A thing may be without mates, even
itself. -/
structure MateClasses (mates : α → α → Bool) : Prop where
  symm : ∀ {a b}, mates a b = true → mates b a = true
  trans : ∀ {a b c}, mates a b = true → mates b c = true → mates a c = true

namespace MateClasses

variable {mates : α → α → Bool} (h : MateClasses mates) {a b : α}

include h

theorem congr_left (hab : mates a b = true) : mates a = mates b := by
  funext c
  exact Bool.eq_iff_iff.mpr ⟨h.trans (h.symm hab), h.trans hab⟩

theorem congr_right (hab : mates a b = true) (x : α) : mates x a = mates x b :=
  Bool.eq_iff_iff.mpr ⟨fun hxa => h.trans hxa hab, fun hxb => h.trans hxb (h.symm hab)⟩

theorem self_left (hab : mates a b = true) : mates a a = true :=
  h.trans hab (h.symm hab)

end MateClasses

section PairOff

variable {mates : α → α → Bool} {removed added : List α}

/-! ## What is left -/

theorem pairOff_removed_sublist (mates : α → α → Bool) (removed added : List α) :
    (pairOff mates removed added).removed.Sublist removed := by
  induction removed generalizing added with
  | nil => simp [pairOff]
  | cons old removed ih =>
      rw [pairOff]
      split
      next => exact (ih _).cons old
      next => exact (ih added).cons_cons old

theorem pairOff_added_sublist (mates : α → α → Bool) (removed added : List α) :
    (pairOff mates removed added).added.Sublist added := by
  induction removed generalizing added with
  | nil => simp [pairOff]
  | cons old removed ih =>
      rw [pairOff]
      split
      next => exact (ih _).trans List.eraseP_sublist
      next => exact ih added

theorem pairOff_pairs_sublist (mates : α → α → Bool) (removed added : List α) :
    ((pairOff mates removed added).pairs.map (·.old)).Sublist removed := by
  induction removed generalizing added with
  | nil => simp [pairOff]
  | cons old removed ih =>
      rw [pairOff]
      split
      next => exact (ih _).cons_cons old
      next => exact (ih added).cons old

/-! ## A class by itself -/

/-- Whether a pairing is by rank within a class. -/
structure Pairing.ByRank (pairing : Pairing α) (inClass : α → Bool) (olds news : List α) :
    Prop where
  pairs : pairing.pairs.filter (fun change => inClass change.old) =
    List.zipWith Change.mk (olds.filter inClass) (news.filter inClass)
  removed : pairing.removed.filter inClass =
    (olds.filter inClass).drop (news.filter inClass).length
  added : pairing.added.filter inClass =
    (news.filter inClass).drop (olds.filter inClass).length

namespace Pairing.ByRank

variable {pairing : Pairing α} {inClass : α → Bool} {olds news news' : List α} {old new : α}

/-- A pair of another class in front changes nothing. -/
theorem cons_pair_other (h : pairing.ByRank inClass olds news)
    (hnews : news'.filter inClass = news.filter inClass) (hold : inClass old = false) :
    ByRank { pairing with pairs := ⟨old, new⟩ :: pairing.pairs } inClass (old :: olds) news' := by
  constructor <;> simp only [hnews, List.filter_cons, hold, Bool.false_eq_true, if_false]
  · exact h.pairs
  · exact h.removed
  · exact h.added

/-- A pair of the class in front consists of the first things of the class. -/
theorem cons_pair (h : pairing.ByRank inClass olds news)
    (hnews : news'.filter inClass = new :: news.filter inClass) (hold : inClass old = true) :
    ByRank { pairing with pairs := ⟨old, new⟩ :: pairing.pairs } inClass (old :: olds) news' := by
  constructor <;> simp only [hnews, List.filter_cons, hold, if_true]
  · exact congrArg _ h.pairs
  · exact h.removed
  · exact h.added

theorem cons_removed_other (h : pairing.ByRank inClass olds news) (hold : inClass old = false) :
    ByRank { pairing with removed := old :: pairing.removed } inClass (old :: olds) news := by
  constructor <;> simp only [List.filter_cons, hold, Bool.false_eq_true, if_false]
  · exact h.pairs
  · exact h.removed
  · exact h.added

/-- A thing of the class is left when the other side has nothing of the class. -/
theorem cons_removed (h : pairing.ByRank inClass olds news) (hnews : news.filter inClass = [])
    (hold : inClass old = true) :
    ByRank { pairing with removed := old :: pairing.removed } inClass (old :: olds) news := by
  have hpairs := h.pairs
  have hremoved := h.removed
  have hadded := h.added
  rw [hnews] at hpairs hremoved hadded
  constructor <;> simp only [hnews, List.filter_cons, hold, if_true]
  · simpa using hpairs
  · simpa using hremoved
  · simpa using hadded

end Pairing.ByRank

theorem pairOff_byRank (h : MateClasses mates) (x : α) (removed added : List α) :
    (pairOff mates removed added).ByRank (mates x) removed added := by
  induction removed generalizing added with
  | nil => constructor <;> simp [pairOff]
  | cons old removed ih =>
      rw [pairOff]
      split
      next new hnew =>
        obtain ⟨hmates, front, back, rfl, hfront⟩ := List.find?_eq_some_iff_append.mp hnew
        have hrest : (front ++ new :: back).eraseP (mates old) = front ++ back := by
          rw [List.eraseP_append_right _ (by simpa using hfront),
            List.eraseP_cons_of_pos hmates]
        have hboth := h.congr_right hmates x
        rw [hrest]
        cases hold : mates x old with
        | false =>
            refine (ih _).cons_pair_other ?_ hold
            simp [List.filter_append, hboth ▸ hold]
        | true =>
            refine (ih _).cons_pair ?_ hold
            -- a mate of `new` is a mate of `old`, and none of these is in front
            have hnone : front.filter (mates x) = [] := by
              rw [h.congr_left hold]
              exact List.filter_eq_nil_iff.mpr fun other hother => by
                simpa using hfront other hother
            simp [List.filter_append, hnone, hboth ▸ hold]
      next hnone =>
        cases hold : mates x old with
        | false => exact (ih added).cons_removed_other hold
        | true =>
            refine (ih added).cons_removed ?_ hold
            rw [h.congr_left hold]
            exact List.filter_eq_nil_iff.mpr (List.find?_eq_none.mp hnone)

/-! ## Ranks -/

/-- Two things are paired when they have the same rank in the same class. -/
theorem mem_pairs_iff_rank (h : MateClasses mates) {change : Change α} :
    change ∈ (pairOff mates removed added).pairs ↔
      ∃ rank : Nat, (removed.filter (mates change.old))[rank]? = some change.old ∧
        (added.filter (mates change.old))[rank]? = some change.new := by
  have hclass : change ∈ (pairOff mates removed added).pairs ↔
      change ∈ (pairOff mates removed added).pairs.filter
        fun other => mates change.old other.old := by
    rw [List.mem_filter]
    exact ⟨fun hmem => ⟨hmem, h.self_left (mates_of_mem_pairOff hmem)⟩, And.left⟩
  rw [hclass, (pairOff_byRank h change.old removed added).pairs]
  simp only [List.mem_iff_getElem?, List.getElem?_zipWith_eq_some]
  constructor
  · rintro ⟨rank, old, new, hold, hnew, rfl⟩
    exact ⟨rank, hold, hnew⟩
  · rintro ⟨rank, hold, hnew⟩
    exact ⟨rank, change.old, change.new, hold, hnew, rfl⟩

/-- What is left on one side has no mates among what is left on the other. -/
theorem not_mates_of_left (h : MateClasses mates) {old new : α}
    (hold : old ∈ (pairOff mates removed added).removed)
    (hnew : new ∈ (pairOff mates removed added).added) : mates old new = false := by
  refine Bool.eq_false_iff.mpr fun hmates => ?_
  have hclass := pairOff_byRank h old removed added
  have holdMem := List.mem_filter.mpr ⟨hold, h.self_left hmates⟩
  have hnewMem := List.mem_filter.mpr ⟨hnew, hmates⟩
  rw [hclass.removed] at holdMem
  rw [hclass.added] at hnewMem
  have holdLength := List.length_pos_of_mem holdMem
  have hnewLength := List.length_pos_of_mem hnewMem
  rw [List.length_drop] at holdLength hnewLength
  omega

/-! ## Both sides alike -/

section Swap

variable (h : MateClasses mates)

include h

theorem swap_mem_pairs (removed added : List α) {change : Change α}
    (hmem : change ∈ (pairOff mates removed added).pairs) :
    change.swap ∈ (pairOff mates added removed).pairs := by
  have hclass := h.congr_left (mates_of_mem_pairOff hmem)
  obtain ⟨rank, hold, hnew⟩ := (mem_pairs_iff_rank h).mp hmem
  exact (mem_pairs_iff_rank h).mpr ⟨rank, hclass ▸ hnew, hclass ▸ hold⟩

theorem pairOff_pairs_swap (hremoved : removed.Nodup) (hadded : added.Nodup) :
    (pairOff mates added removed).pairs.Perm
      ((pairOff mates removed added).pairs.map Change.swap) := by
  have hpairs : ∀ {olds news : List α}, olds.Nodup → (pairOff mates olds news).pairs.Nodup :=
    fun {olds news} holds => by
      have hperm := (pairOff_removed_perm mates olds news).nodup_iff.mp holds
      exact (List.nodup_append.mp hperm).2.1.of_map _
  exact Change.perm_map_swap (hpairs hremoved) (hpairs hadded)
    (fun _ => swap_mem_pairs h removed added) fun _ => swap_mem_pairs h added removed

/-- What is left of one side does not depend on the order of the sides. -/
theorem pairOff_removed_swap (hremoved : removed.Nodup) (hadded : added.Nodup) :
    (pairOff mates added removed).removed.Perm (pairOff mates removed added).added := by
  have hpairs := (pairOff_pairs_swap h hremoved hadded).map (·.old)
  rw [List.map_map] at hpairs
  have hfirst := pairOff_removed_perm mates added removed
  have hsecond := pairOff_added_perm mates removed added
  refine (List.perm_append_right_iff _).mp ((hfirst.symm.trans hsecond).trans ?_)
  exact hpairs.symm.append_left _

end Swap

end PairOff

/-! ## The mates of this library -/

theorem PlacedColumn.mateClasses : MateClasses PlacedColumn.mates := by
  have hiff : ∀ a b : PlacedColumn,
      a.mates b = true ↔ a.column.kind = b.column.kind ∧ a.place = b.place := by
    simp [mates]
  constructor
  · intro a b h
    rw [hiff] at h ⊢
    exact ⟨h.1.symm, h.2.symm⟩
  · intro a b c hab hbc
    rw [hiff] at hab hbc ⊢
    exact ⟨hab.1.trans hbc.1, hab.2.trans hbc.2⟩

theorem Table.indexesMate_iff {a b : Index} :
    indexesMate a b = true ↔ a.isPrimary = false ∧ b.isPrimary = false ∧ a.Same b := by
  simp [indexesMate, Index.Same, and_assoc]

theorem Table.indexesMate_mateClasses : MateClasses Table.indexesMate := by
  constructor
  · intro a b h
    rw [indexesMate_iff] at h ⊢
    exact ⟨h.2.1, h.1, h.2.2.symm⟩
  · intro a b c hab hbc
    rw [indexesMate_iff] at hab hbc ⊢
    exact ⟨hab.1, hbc.2.1, hab.2.2.trans hbc.2.2⟩

theorem ForeignKey.sameDefinition_mateClasses : MateClasses ForeignKey.sameDefinition :=
  ⟨ForeignKey.Same.symm, ForeignKey.Same.trans⟩

theorem Table.tablesMate_iff {a b : Table} :
    a.tablesMate b = true ↔ a.columnSignature ≠ [] ∧ a.columnSignature = b.columnSignature := by
  simp only [tablesMate, Bool.and_eq_true, Bool.not_eq_true', List.isEmpty_eq_false_iff,
    beq_iff_eq]
  exact and_congr_right fun _ => eq_comm

theorem Table.tablesMate_mateClasses : MateClasses Table.tablesMate := by
  constructor
  · intro a b h
    rw [tablesMate_iff] at h ⊢
    exact ⟨h.2 ▸ h.1, h.2.symm⟩
  · intro a b c hab hbc
    rw [tablesMate_iff] at hab hbc ⊢
    exact ⟨hab.1, hab.2.trans hbc.2⟩

end SchemaDelta
