import SchemaDelta.Proofs.Diff.Symmetry

/-!
# Everything is accounted for once

Each old thing is either removed, or changed, or renamed, or still there as it was
under its name, and it is so once; likewise each new thing is added, changed,
renamed or as it was.  The lists of a difference are in strictly ascending order
of the old names.
-/

namespace SchemaDelta

open Named

/-! ## Accounting -/

/-- Every item is in exactly one of the parts, and there once, and nothing else is. -/
structure PartedInto {α : Type} (items : List α) (parts : List (List α)) : Prop where
  nodup : items.Nodup
  perm : items.Perm parts.flatten

/-- All lists of a difference are in order. -/
structure Delta.InOrder {α : Type} [Named α] (delta : Delta α) : Prop where
  added : Ascending delta.added
  removed : Ascending delta.removed
  changed : Ascending delta.changed
  renamed : Ascending delta.renamed

/-- A difference and the pairs of things that stay as they are, `kept`, account for
two lists. -/
structure Delta.Conserves {α : Type} [Named α] (alike : α → α → Prop) (old new : List α)
    (delta : Delta α) (kept : List (Change α)) : Prop where
  kept_iff : ∀ change : Change α, change ∈ kept ↔
    change.old ∈ old ∧ change.new ∈ new ∧ key change.new = key change.old ∧
      alike change.old change.new
  old : PartedInto old [delta.removed, delta.changed.map (·.old), delta.renamed.map (·.old),
    kept.map (·.old)]
  new : PartedInto new [delta.added, delta.changed.map (·.new), delta.renamed.map (·.new),
    kept.map (·.new)]
  inOrder : delta.InOrder

namespace Delta

/-! ## Lists -/

/-- One side of the pairs and of what is without a counterpart. -/
theorem parts_perm {α : Type} (side : Change α → α) {items alone left : List α}
    {counterparts changed kept pairs : List (Change α)}
    (hitems : items.Perm (alone ++ counterparts.map side))
    (halone : alone.Perm (left ++ pairs.map side))
    (hcounterparts : counterparts.Perm (changed ++ kept)) :
    items.Perm (left ++ ((changed ++ pairs).map side ++ kept.map side)) := by
  have hmap := hcounterparts.map side
  have hexchange : (pairs.map side ++ (changed.map side ++ kept.map side)).Perm
      ((changed ++ pairs).map side ++ kept.map side) := by
    rw [List.map_append, ← List.append_assoc]
    exact List.perm_append_comm.append_right _
  rw [List.map_append] at hmap
  have hparts := hitems.trans (halone.append hmap)
  rw [List.append_assoc] at hparts
  exact hparts.trans (hexchange.append_left _)

section Between

variable {α : Type} [Named α] {same mates : α → α → Bool} {old new : List α}

/-- The counterparts that do not differ. -/
def unaltered (same : α → α → Bool) (old new : List α) : List (Change α) :=
  (matched old new).filter fun change => same change.old change.new

theorem mem_unaltered (hnew : Distinct new) {change : Change α} :
    change ∈ unaltered same old new ↔ change.old ∈ old ∧ change.new ∈ new ∧
      key change.new = key change.old ∧ same change.old change.new = true := by
  rw [unaltered, List.mem_filter, mem_matched, lookup_eq_some_iff hnew]
  simp only [and_assoc]

theorem matched_perm (same : α → α → Bool) (old new : List α) :
    (matched old new).Perm (altered same old new ++ unaltered same old new) := by
  have hperm := List.filter_append_perm
    (fun change : Change α => !same change.old change.new) (matched old new)
  simp only [Bool.not_not] at hperm
  exact hperm.symm

/-- All counterparts are altered when nothing counts as the same. -/
theorem altered_eq_matched (old new : List α) :
    altered (fun _ _ => false) old new = matched old new := by
  simp [altered]

theorem matched_swap (hold : Distinct old) (hnew : Distinct new) :
    (matched new old).Perm ((matched old new).map Change.swap) := by
  rw [← altered_eq_matched, ← altered_eq_matched]
  exact altered_perm_swap (fun _ _ _ _ => rfl) hold hnew

theorem old_perm (old new : List α) :
    old.Perm (unmatched old new ++ (matched old new).map (·.old)) := by
  rw [matched_old]
  have hperm := List.filter_append_perm (fun item => contains (Named.name item) new) old
  exact hperm.symm.trans List.perm_append_comm

theorem new_perm (hold : Distinct old) (hnew : Distinct new) :
    new.Perm (unmatched new old ++ (matched old new).map (·.new)) := by
  have hmatched := (matched_swap hold hnew).map (·.old)
  rw [List.map_map] at hmatched
  exact (old_perm new old).trans (hmatched.append_left _)

theorem between_inOrder (hold : Distinct old) (hnew : Distinct new) :
    (between same mates old new).InOrder := by
  have hgone := unmatched_distinct new hold
  have hcome := unmatched_distinct old hnew
  have hpairs := hgone.perm (pairOff_removed_perm mates _ (unmatched new old))
  exact {
    added := ascending_sort (hcome.sublist (pairOff_added_sublist ..))
    removed := ascending_sort (hgone.sublist (pairOff_removed_sublist ..))
    changed := ascending_sort (distinct_pairs (altered_old_distinct same new hold))
    renamed := ascending_sort (distinct_pairs (List.pairwise_append.mp hpairs).2.1) }

theorem sorted_parts_perm (side : Change α → α) (left : List α)
    (changed pairs kept : List (Change α)) :
    (left ++ ((changed ++ pairs).map side ++ kept.map side)).Perm
      [Named.sort left, (Named.sort changed).map side, (Named.sort pairs).map side,
        kept.map side].flatten := by
  have hpairs := ((sort_perm changed).symm.map side).append ((sort_perm pairs).symm.map side)
  simpa [List.append_assoc] using
    (sort_perm left).symm.append (hpairs.append_right (kept.map side))

theorem sorted_replaced_perm (side : Change α → α) (left : List α)
    (replaced kept : List (Change α)) :
    (left ++ (replaced.map side ++ kept.map side)).Perm
      [left, (Named.sort replaced).map side, kept.map side].flatten := by
  have hreplaced := (sort_perm replaced).symm.map side
  simpa using (hreplaced.append_right (kept.map side)).append_left left

theorem between_conserves (same mates : α → α → Bool) (hold : Distinct old)
    (hnew : Distinct new) :
    (between same mates old new).Conserves (fun a b => same a b = true) old new
      (unaltered same old new) := by
  have hmatched := matched_perm same old new
  refine ⟨fun _ => mem_unaltered hnew, ⟨hold.nodup, ?_⟩, ⟨hnew.nodup, ?_⟩,
    between_inOrder hold hnew⟩
  · exact (parts_perm (·.old) (old_perm old new) (pairOff_removed_perm ..) hmatched).trans
      (sorted_parts_perm ..)
  · exact (parts_perm (·.new) (new_perm hold hnew) (pairOff_added_perm ..) hmatched).trans
      (sorted_parts_perm ..)

end Between

/-! ## Things with more to them -/

section Map

variable {α β : Type} [Named α] [Named β] {f : α → β}

theorem ascending_map (hkey : ∀ item, key (f item) = key item) {items : List α}
    (h : Ascending items) : Ascending (items.map f) := by
  rw [Ascending, List.pairwise_map]
  exact h.imp fun {a b} hlt => by rwa [hkey, hkey]

theorem InOrder.map (hkey : ∀ item, key (f item) = key item) {delta : Delta α}
    (h : delta.InOrder) : (delta.map f).InOrder := by
  have hchange : ∀ change : Change α, key (change.map f) = key change :=
    fun change => hkey change.old
  exact ⟨ascending_map hkey h.added, ascending_map hkey h.removed,
    ascending_map hchange h.changed, ascending_map hchange h.renamed⟩

theorem Conserves.map (hkey : ∀ item, key (f item) = key item) {alike : α → α → Prop}
    {alike' : β → β → Prop} (halike : ∀ a b, alike a b ↔ alike' (f a) (f b)) {old new : List α}
    {delta : Delta α} {kept : List (Change α)} (hold : Distinct old) (hnew : Distinct new)
    (h : delta.Conserves alike old new kept) :
    (delta.map f).Conserves alike' (old.map f) (new.map f) (kept.map (Change.map f)) := by
  refine ⟨fun change => ?_, ⟨((distinct_map hkey).mpr hold).nodup, ?_⟩,
    ⟨((distinct_map hkey).mpr hnew).nodup, ?_⟩, h.inOrder.map hkey⟩
  · simp only [List.mem_map, h.kept_iff]
    constructor
    · rintro ⟨other, ⟨hold, hnew, hsame, halike'⟩, rfl⟩
      exact ⟨⟨_, hold, rfl⟩, ⟨_, hnew, rfl⟩, by simpa [Change.map, hkey] using hsame,
        (halike _ _).mp halike'⟩
    · rintro ⟨⟨a, ha, hfa⟩, ⟨b, hb, hfb⟩, hsame, halike'⟩
      rw [← hfa, ← hfb] at hsame halike'
      refine ⟨⟨a, b⟩, ⟨ha, hb, by simpa [hkey] using hsame, (halike _ _).mpr halike'⟩, ?_⟩
      simp [Change.map, hfa, hfb]
  · simpa [Delta.map, Change.map, Function.comp_def] using h.old.perm.map f
  · simpa [Delta.map, Change.map, Function.comp_def] using h.new.perm.map f

end Map

end Delta

/-! ## Tables -/

/-- The difference of two tables accounts for their columns, indexes and foreign
keys. -/
structure TableDiff.Conserves (old new : Table) (diff : TableDiff) : Prop where
  columns : ∃ kept, diff.columns.Conserves Column.Alike old.columns new.columns kept
  indexes : ∃ kept, diff.indexes.Conserves Index.Alike old.allIndexes new.allIndexes kept
  foreignKeys : ∃ kept,
    diff.foreignKeys.Conserves ForeignKey.Alike old.foreignKeys new.foreignKeys kept

namespace Delta.Conserves

variable {α : Type} [Named α] {alike alike' : α → α → Prop} {old new : List α}
  {delta : Delta α} {kept : List (Change α)}

theorem congr (halike : ∀ a b, alike a b ↔ alike' a b)
    (h : delta.Conserves alike old new kept) : delta.Conserves alike' old new kept :=
  ⟨fun change => by rw [h.kept_iff, halike], h.old, h.new, h.inOrder⟩

end Delta.Conserves

namespace Table

theorem conserves_diff {old new : Table} (hold : old.Coherent) (hnew : new.Coherent) :
    (old.diff new).Conserves old new := by
  have hplaced := Delta.between_conserves PlacedColumn.unchanged PlacedColumn.mates
    (hold.placedColumns_distinct new) (hnew.placedColumns_distinct old)
  have hcolumns : Delta.Conserves Column.Alike _ _ (columnDelta old new) _ :=
    hplaced.map (f := PlacedColumn.column) (fun _ => rfl) (fun _ _ => Column.same_iff_alike)
      (hold.placedColumns_distinct new) (hnew.placedColumns_distinct old)
  rw [placedColumns_map_column, placedColumns_map_column] at hcolumns
  have hindexes := (Delta.between_conserves Index.sameDefinition indexesMate
    hold.allIndexes_distinct hnew.allIndexes_distinct).congr fun _ _ => Index.same_iff_alike
  have hforeignKeys := (Delta.between_conserves ForeignKey.sameDefinition
    ForeignKey.sameDefinition hold.foreignKeys.distinct hnew.foreignKeys.distinct).congr
      fun _ _ => ForeignKey.same_iff_alike
  rw [← foreignKeyDelta_eq_between hold hnew] at hforeignKeys
  exact ⟨⟨_, hcolumns⟩, ⟨_, hindexes⟩, ⟨_, hforeignKeys⟩⟩

end Table

/-! ## Schemas -/

namespace Schema

variable {a b : Schema}

theorem replacedTables_distinct (ha : a.Coherent) (hb : b.Coherent) :
    Distinct (replacedTables a b) :=
  Delta.distinct_pairs (List.pairwise_append.mp (diff_account ha hb).gone_distinct).2.1

theorem diff_inOrder (ha : a.Coherent) (hb : b.Coherent) :
    Ascending (a.diff b).added ∧ Ascending (a.diff b).removed ∧ Ascending (a.diff b).changed := by
  have haOrder := ha.keyed.ascending
  have hbOrder := hb.keyed.ascending
  refine ⟨hbOrder.sublist ?_, haOrder.sublist ?_, ?_⟩
  · exact (pairOff_added_sublist ..).trans List.filter_sublist
  · exact (pairOff_removed_sublist ..).trans List.filter_sublist
  · rw [diff_changed]
    refine Delta.ascending_map (f := fun change : Change Table => change.old.diff change.new)
      (fun _ => rfl) ?_
    exact ascending_sort ((replacedTables_distinct ha hb).perm (Delta.sort_perm _))

/-- The difference of two schemas and the pairs of tables that are alike account
for all tables once, and the difference of two tables for all that they hold. -/
theorem diff_conserves (ha : a.Built) (hb : b.Built) :
    (∃ replaced kept : List (Change Table),
      (a.diff b).changed = replaced.map (fun change => change.old.diff change.new) ∧
        (∀ change : Change Table, change ∈ kept ↔ change.old ∈ a.tableList ∧
          change.new ∈ b.tableList ∧ key change.new = key change.old ∧
            change.old.Alike change.new) ∧
        PartedInto a.tableList [(a.diff b).removed, replaced.map (·.old), kept.map (·.old)] ∧
        PartedInto b.tableList [(a.diff b).added, replaced.map (·.new), kept.map (·.new)]) ∧
      Ascending (a.diff b).added ∧ Ascending (a.diff b).removed ∧
      Ascending (a.diff b).changed ∧
      ∀ old ∈ a.tableList, ∀ new ∈ b.tableList, (old.diff new).Conserves old new := by
  have ha := ha.wellFormed.coherent
  have hb := hb.wellFormed.coherent
  obtain ⟨hadded, hremoved, hchanged⟩ := diff_inOrder ha hb
  refine ⟨?_, hadded, hremoved, hchanged, fun old hold new hnew =>
    Table.conserves_diff (ha.tables old hold) (hb.tables new hnew)⟩
  have haDistinct := ha.keyed.distinct
  have hbDistinct := hb.keyed.distinct
  have hmatched := Delta.matched_perm (fun s t : Table => (s.diff t).isEmpty) a.tableList
    b.tableList
  have hgone := pairOff_removed_perm Table.tablesMate (Delta.unmatched a.tableList b.tableList)
    (Delta.unmatched b.tableList a.tableList)
  have hcome := pairOff_added_perm Table.tablesMate (Delta.unmatched a.tableList b.tableList)
    (Delta.unmatched b.tableList a.tableList)
  refine ⟨replacedTables a b, Delta.unaltered (fun s t : Table => (s.diff t).isEmpty) a.tableList
    b.tableList, diff_changed a b, fun change => ?_, ⟨haDistinct.nodup, ?_⟩,
    ⟨hbDistinct.nodup, ?_⟩⟩
  · rw [Delta.mem_unaltered hbDistinct]
    refine and_congr_right fun hold => and_congr_right fun hnew => and_congr_right fun hkey => ?_
    have hold := ha.tables _ hold
    have hnew := hb.tables _ hnew
    exact (Table.diff_isEmpty_iff hold hnew).trans (Table.matches_iff_alike hold hnew hkey.symm)
  · have hparts := Delta.parts_perm (·.old) (Delta.old_perm a.tableList b.tableList)
      hgone hmatched
    exact hparts.trans (Delta.sorted_replaced_perm ..)
  · have hparts := Delta.parts_perm (·.new) (Delta.new_perm haDistinct hbDistinct)
      hcome hmatched
    exact hparts.trans (Delta.sorted_replaced_perm ..)

/-- A table is unchanged, two are renamed, and one is left over. -/
theorem diff_conserves_competing :
    ((ofNames ["a", "b", "k"]).diff (ofNames ["c", "D", "e", "K"])).changed.map (·.newName) =
        [some "c", some "D"] ∧
      ∃ replaced kept : List (Change Table),
        ((ofNames ["a", "b", "k"]).diff (ofNames ["c", "D", "e", "K"])).changed =
          replaced.map (fun change => change.old.diff change.new) ∧
        PartedInto (ofNames ["a", "b", "k"]).tableList
          [((ofNames ["a", "b", "k"]).diff (ofNames ["c", "D", "e", "K"])).removed,
            replaced.map (·.old), kept.map (·.old)] ∧
        PartedInto (ofNames ["c", "D", "e", "K"]).tableList
          [((ofNames ["a", "b", "k"]).diff (ofNames ["c", "D", "e", "K"])).added,
            replaced.map (·.new), kept.map (·.new)] := by
  obtain ⟨⟨replaced, kept, hchanged, -, hparts⟩, -⟩ :=
    diff_conserves (ofNames_built ["a", "b", "k"] (by decide))
      (ofNames_built ["c", "D", "e", "K"] (by decide))
  exact ⟨by cbv, replaced, kept, hchanged, hparts⟩

end Schema

end SchemaDelta
