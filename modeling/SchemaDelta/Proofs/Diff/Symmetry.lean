import Mathlib
import SchemaDelta.Proofs.Diff.Alike
import SchemaDelta.Proofs.Diff.Pairing
import SchemaDelta.Proofs.Named.Order

/-!
# Differences the other way round

The difference from the new side to the old one is the mirror image of the
difference from the old side to the new one: what is added there is removed here,
and what is changed or renamed is so with its two versions exchanged.
-/

namespace SchemaDelta

open Named

/-! ## Mirror images of lists of changes -/

/-- Removed and added things trade places, and pairs have their sides exchanged.
Changed things keep their order; renamed ones are ordered by their other names. -/
structure Delta.Mirrors {α : Type} (delta mirror : Delta α) : Prop where
  added : mirror.added = delta.removed
  removed : mirror.removed = delta.added
  changed : mirror.changed = delta.changed.map Change.swap
  renamed : mirror.renamed.Perm (delta.renamed.map Change.swap)

namespace Delta

section Map

variable {α β : Type} {f : α → β} {delta mirror : Delta α}

theorem Mirrors.map (f : α → β) (h : delta.Mirrors mirror) :
    (delta.map f).Mirrors (mirror.map f) := by
  have hswap : Change.map f ∘ Change.swap = Change.swap ∘ Change.map f := rfl
  constructor <;> simp only [Delta.map]
  · rw [h.added]
  · rw [h.removed]
  · rw [h.changed, List.map_map, List.map_map, hswap]
  · simpa [List.map_map, hswap] using h.renamed.map (Change.map f)

end Map

variable {α : Type} [Named α] {same mates : α → α → Bool} {old new : List α}

theorem unmatched_distinct {items : List α} (others : List α) (h : Distinct items) :
    Distinct (unmatched items others) :=
  h.sublist List.filter_sublist

theorem distinct_pairs {pairs : List (Change α)} (h : Distinct (pairs.map (·.old))) :
    Distinct pairs := by
  rwa [Distinct, List.pairwise_map] at h

theorem ascending_pairs {pairs : List (Change α)} (h : Ascending (pairs.map (·.old))) :
    Ascending pairs := by
  rwa [Ascending, List.pairwise_map] at h

theorem swap_mem_altered (hsymm : ∀ a ∈ old, ∀ b ∈ new, same a b = same b a)
    (hold : Distinct old) {change : Change α} (h : change ∈ altered same old new) :
    change.swap ∈ altered same new old := by
  obtain ⟨hmatched, hdiffers⟩ := mem_altered.mp h
  obtain ⟨holdMem, hfound⟩ := mem_matched.mp hmatched
  have hnewMem := (mem_of_lookup hfound).1
  refine mem_altered.mpr ⟨mem_matched.mpr ⟨hnewMem, ?_⟩, ?_⟩
  · exact (lookup_eq_some_iff hold).mpr ⟨holdMem, (key_of_mem_matched hmatched).symm⟩
  · exact (hsymm _ holdMem _ hnewMem).symm.trans hdiffers

theorem altered_perm_swap (hsymm : ∀ a ∈ old, ∀ b ∈ new, same a b = same b a)
    (hold : Distinct old) (hnew : Distinct new) :
    (altered same new old).Perm ((altered same old new).map Change.swap) := by
  have hnodup : ∀ {olds : List α} (news : List α), Distinct olds →
      (altered same olds news).Nodup := fun news holds =>
    (altered_old_distinct same news holds).nodup.of_map _
  exact Change.perm_map_swap (hnodup new hold) (hnodup old hnew)
    (fun _ => swap_mem_altered hsymm hold)
    fun _ => swap_mem_altered (fun a ha b hb => (hsymm b hb a ha).symm) hnew

/-- Things that kept their names are in the same order on both sides. -/
theorem sort_altered_swap (hsymm : ∀ a b, same a b = same b a) (hold : Distinct old)
    (hnew : Distinct new) :
    Named.sort (altered same new old) = (Named.sort (altered same old new)).map Change.swap := by
  have hdistinct : ∀ {olds : List α} (news : List α), Distinct olds →
      Distinct (altered same olds news) := fun news holds =>
    distinct_pairs (altered_old_distinct same news holds)
  have hperm := altered_perm_swap (fun a _ b _ => hsymm a b) hold hnew
  refine (ascending_sort (hdistinct old hnew)).eq_of_perm ?_
    ((sort_perm _).trans (hperm.trans ((sort_perm _).symm.map _)))
  refine List.pairwise_map.mpr ((ascending_sort (hdistinct new hold)).imp_of_mem ?_)
  intro first second hfirst hsecond hlt
  have hkey : ∀ change ∈ Named.sort (altered same old new), key change.swap = key change :=
    fun change hmem =>
      key_of_mem_matched (mem_altered.mp ((sort_perm _).mem_iff.mp hmem)).1
  rwa [hkey first hfirst, hkey second hsecond]

/-- Nothing needs sorting when the lists that are compared are in order. -/
theorem unsorted_eq_between (hold : Ascending old) (hnew : Ascending new) :
    unsorted same mates old new = between same mates old new := by
  have hgone : Ascending (unmatched old new) := hold.sublist List.filter_sublist
  have hcome : Ascending (unmatched new old) := hnew.sublist List.filter_sublist
  have hadded : Ascending (unsorted same mates old new).added :=
    hcome.sublist (pairOff_added_sublist ..)
  have hremoved : Ascending (unsorted same mates old new).removed :=
    hgone.sublist (pairOff_removed_sublist ..)
  have hchanged : Ascending (unsorted same mates old new).changed :=
    ascending_pairs (hold.sublist (altered_old_sublist ..))
  have hrenamed : Ascending (unsorted same mates old new).renamed :=
    ascending_pairs (hgone.sublist (pairOff_pairs_sublist ..))
  rw [between, sorted, hadded.sort_eq, hremoved.sort_eq, hchanged.sort_eq, hrenamed.sort_eq]

theorem between_mirrors (hmates : MateClasses mates) (hsymm : ∀ a b, same a b = same b a)
    (hold : Distinct old) (hnew : Distinct new) :
    (between same mates old new).Mirrors (between same mates new old) := by
  have hgone := unmatched_distinct new hold
  have hcome := unmatched_distinct old hnew
  have hleft : ∀ {olds news : List α}, Distinct olds → Distinct news →
      Named.sort (pairOff mates news olds).removed = Named.sort (pairOff mates olds news).added :=
    fun {olds news} holds hnews => sort_congr (hnews.sublist (pairOff_removed_sublist ..))
      (pairOff_removed_swap hmates holds.nodup hnews.nodup)
  refine ⟨(hleft hcome hgone).symm, hleft hgone hcome, sort_altered_swap hsymm hold hnew, ?_⟩
  exact (sort_perm _).trans ((pairOff_pairs_swap hmates hgone.nodup hcome.nodup).trans
    ((sort_perm _).symm.map _))

end Delta

/-! ## Tables -/

/-- The same difference, seen from the other side. -/
structure TableDiff.Mirrors (diff mirror : TableDiff) : Prop where
  kept : diff.newName = none → mirror.newName = none ∧ sameName mirror.name diff.name = true
  renamed : ∀ target, diff.newName = some target →
    mirror.name = target ∧ mirror.newName = some diff.name
  columns : diff.columns.Mirrors mirror.columns
  properties : ∀ change ∈ diff.columns.changed ++ diff.columns.renamed,
    change.new.differences change.old = change.old.differences change.new
  indexes : diff.indexes.Mirrors mirror.indexes
  foreignKeys : diff.foreignKeys.Mirrors mirror.foreignKeys

theorem Column.differences_comm (a b : Column) : a.differences b = b.differences a := by
  unfold differences
  exact List.filter_congr fun property _ => property.differs_comm a b

namespace Table

variable {old new : Table}

theorem foreignKeyDelta_eq_between (hold : old.Coherent) (hnew : new.Coherent) :
    foreignKeyDelta old new = .between ForeignKey.sameDefinition ForeignKey.sameDefinition
      old.foreignKeys new.foreignKeys :=
  Delta.unsorted_eq_between hold.foreignKeys hnew.foreignKeys

theorem diff_mirrors (hold : old.Coherent) (hnew : new.Coherent) :
    (old.diff new).Mirrors (new.diff old) := by
  have hcomm : sameName new.name old.name = sameName old.name new.name := by
    simp [sameName, Bool.beq_comm]
  have hcolumns : (columnDelta old new).Mirrors (columnDelta new old) := by
    refine (Delta.between_mirrors PlacedColumn.mateClasses (fun a b => ?_)
      (hold.placedColumns_distinct new) (hnew.placedColumns_distinct old)).map _
    rw [PlacedColumn.unchanged, PlacedColumn.unchanged, Column.differences_comm]
  have hindexes : (indexDelta old new).Mirrors (indexDelta new old) :=
    Delta.between_mirrors indexesMate_mateClasses
      (fun _ _ => Bool.eq_iff_iff.mpr ⟨Index.Same.symm, Index.Same.symm⟩)
      hold.allIndexes_distinct hnew.allIndexes_distinct
  have hforeignKeys : (foreignKeyDelta old new).Mirrors (foreignKeyDelta new old) := by
    rw [foreignKeyDelta_eq_between hold hnew, foreignKeyDelta_eq_between hnew hold]
    exact Delta.between_mirrors ForeignKey.sameDefinition_mateClasses
      (fun _ _ => Bool.eq_iff_iff.mpr ⟨ForeignKey.Same.symm, ForeignKey.Same.symm⟩)
      hold.foreignKeys.distinct hnew.foreignKeys.distinct
  refine ⟨?_, ?_, hcolumns, fun change _ => Column.differences_comm _ _, hindexes, hforeignKeys⟩
  · intro hname
    cases hsame : sameName old.name new.name with
    | false => simp [diff, hsame] at hname
    | true => simp [diff, hcomm, hsame]
  · intro target htarget
    cases hsame : sameName old.name new.name with
    | false =>
        obtain rfl : new.name = target := by simpa [diff, hsame] using htarget
        simp [diff, hcomm, hsame]
    | true => simp [diff, hsame] at htarget

end Table

/-! ## Schemas -/

namespace Schema

variable {a b : Schema}

theorem mem_replacedTables (ha : a.Coherent) (hb : b.Coherent) {change : Change Table}
    (h : change ∈ replacedTables a b) : change.old ∈ a.tableList ∧ change.new ∈ b.tableList := by
  obtain ⟨hold, hnew, _⟩ := (diff_account ha hb).replaced_fits change h
  exact ⟨(mem_of_lookup hold).1, (mem_of_lookup hnew).1⟩

theorem replacedTables_swap (ha : a.Coherent) (hb : b.Coherent) :
    (replacedTables b a).Perm ((replacedTables a b).map Change.swap) := by
  have hsymm : ∀ s ∈ a.tableList, ∀ t ∈ b.tableList,
      (s.diff t).isEmpty = (t.diff s).isEmpty := fun s hs t ht =>
    Bool.eq_iff_iff.mpr <|
      (Table.diff_isEmpty_iff (ha.tables s hs) (hb.tables t ht)).trans <|
        Iff.trans ⟨.symm, .symm⟩
          (Table.diff_isEmpty_iff (hb.tables t ht) (ha.tables s hs)).symm
  have haltered := Delta.altered_perm_swap hsymm ha.keyed.distinct hb.keyed.distinct
  have hpairs := pairOff_pairs_swap Table.tablesMate_mateClasses
    (Delta.unmatched_distinct b.tableList ha.keyed.distinct).nodup
    (Delta.unmatched_distinct a.tableList hb.keyed.distinct).nodup
  unfold replacedTables
  refine (Delta.sort_perm _).trans ((haltered.append hpairs).trans ?_)
  rw [← List.map_append]
  exact (Delta.sort_perm _).symm.map _

theorem diff_removed_swap (ha : a.Coherent) (hb : b.Coherent) :
    (b.diff a).removed = (a.diff b).added := by
  have ha := ha.keyed.ascending
  have hb := hb.keyed.ascending
  have hperm := pairOff_removed_swap Table.tablesMate_mateClasses
    (Delta.unmatched_distinct b.tableList ha.distinct).nodup
    (Delta.unmatched_distinct a.tableList hb.distinct).nodup
  refine Ascending.eq_of_perm (hb.sublist ?_) (hb.sublist ?_) hperm
  · exact (pairOff_removed_sublist ..).trans List.filter_sublist
  · exact (pairOff_added_sublist ..).trans List.filter_sublist

/-- The difference from `b` to `a` is the one from `a` to `b` with the sides
exchanged. -/
theorem diff_swap (ha : a.Built) (hb : b.Built) :
    (b.diff a).added = (a.diff b).removed ∧ (b.diff a).removed = (a.diff b).added ∧
      ∃ mirrors, mirrors.Perm (b.diff a).changed ∧
        List.Forall₂ TableDiff.Mirrors (a.diff b).changed mirrors := by
  have ha := ha.wellFormed.coherent
  have hb := hb.wellFormed.coherent
  refine ⟨(diff_removed_swap hb ha).symm, diff_removed_swap ha hb,
    (replacedTables a b).map fun change => change.new.diff change.old, ?_, ?_⟩
  · have hperm := (replacedTables_swap ha hb).map fun change => change.old.diff change.new
    rw [List.map_map, ← diff_changed] at hperm
    exact hperm.symm
  · rw [diff_changed, List.forall₂_map_left_iff, List.forall₂_map_right_iff, List.forall₂_same]
    intro change hmem
    obtain ⟨hold, hnew⟩ := mem_replacedTables ha hb hmem
    exact Table.diff_mirrors (ha.tables _ hold) (hb.tables _ hnew)

/-- Two tables that could become any of three others. -/
theorem diff_swap_competing :
    ((ofNames ["a", "b"]).diff (ofNames ["c", "D", "e"])).changed.map (·.newName) =
        [some "c", some "D"] ∧
      ((ofNames ["c", "D", "e"]).diff (ofNames ["a", "b"])).removed =
        ((ofNames ["a", "b"]).diff (ofNames ["c", "D", "e"])).added ∧
      ∃ mirrors, mirrors.Perm ((ofNames ["c", "D", "e"]).diff (ofNames ["a", "b"])).changed ∧
        List.Forall₂ TableDiff.Mirrors
          ((ofNames ["a", "b"]).diff (ofNames ["c", "D", "e"])).changed mirrors :=
  ⟨by cbv, (diff_swap (ofNames_built ["a", "b"] (by decide))
    (ofNames_built ["c", "D", "e"] (by decide))).2⟩

end Schema

end SchemaDelta
