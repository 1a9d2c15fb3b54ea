import SchemaDelta.Proofs.Diff.Schema

/-!
# Where the parts of a difference come from

A difference is made of items of its two sides, whatever the sides are like: what it
removes, or takes as the old form of something, is an item of the old side, and what it
adds, or takes as a new form, is one of the new side.  None of the tables that it
changes is without a difference.
-/

namespace SchemaDelta

open Named

/-- The items of a difference are items of its two sides. -/
structure Delta.Within {α : Type} (old new : List α) (delta : Delta α) : Prop where
  added : ∀ item ∈ delta.added, item ∈ new
  removed : ∀ item ∈ delta.removed, item ∈ old
  changed : ∀ change ∈ delta.changed, change.old ∈ old ∧ change.new ∈ new
  renamed : ∀ change ∈ delta.renamed, change.old ∈ old ∧ change.new ∈ new

theorem Delta.Within.map {α β : Type} {old new : List α} {delta : Delta α}
    (h : delta.Within old new) (f : α → β) : (delta.map f).Within (old.map f) (new.map f) := by
  constructor
  · intro item hitem
    obtain ⟨origin, horigin, rfl⟩ := List.mem_map.mp hitem
    exact List.mem_map_of_mem (h.added origin horigin)
  · intro item hitem
    obtain ⟨origin, horigin, rfl⟩ := List.mem_map.mp hitem
    exact List.mem_map_of_mem (h.removed origin horigin)
  · intro change hchange
    obtain ⟨origin, horigin, rfl⟩ := List.mem_map.mp hchange
    obtain ⟨hold, hnew⟩ := h.changed origin horigin
    exact ⟨List.mem_map_of_mem hold, List.mem_map_of_mem hnew⟩
  · intro change hchange
    obtain ⟨origin, horigin, rfl⟩ := List.mem_map.mp hchange
    obtain ⟨hold, hnew⟩ := h.renamed origin horigin
    exact ⟨List.mem_map_of_mem hold, List.mem_map_of_mem hnew⟩

theorem mem_of_mem_pairOff {α : Type} {mates : α → α → Bool} {removed added : List α}
    {change : Change α} (h : change ∈ (pairOff mates removed added).pairs) :
    change.old ∈ removed ∧ change.new ∈ added := by
  constructor
  · apply (pairOff_removed_perm mates removed added).mem_iff.mpr
    exact List.mem_append_right _ (List.mem_map_of_mem h)
  · apply (pairOff_added_perm mates removed added).mem_iff.mpr
    exact List.mem_append_right _ (List.mem_map_of_mem h)

namespace Delta

variable {α : Type} [Named α]

theorem mem_sort {item : α} {items : List α} : item ∈ Named.sort items ↔ item ∈ items :=
  (sort_perm items).mem_iff

theorem mem_of_mem_matched {old new : List α} {change : Change α} (h : change ∈ matched old new) :
    change.old ∈ old ∧ change.new ∈ new := by
  obtain ⟨hold, hfound⟩ := mem_matched.mp h
  exact ⟨hold, (mem_of_lookup hfound).1⟩

theorem between_within (same mates : α → α → Bool) (old new : List α) :
    (between same mates old new).Within old new := by
  have hpairs := pairOff_removed_perm mates (unmatched old new) (unmatched new old)
  have hleft := pairOff_added_perm mates (unmatched old new) (unmatched new old)
  constructor
  · intro item hitem
    have hunmatched := hleft.mem_iff.mpr (List.mem_append_left _ (mem_sort.mp hitem))
    exact (mem_unmatched.mp hunmatched).1
  · intro item hitem
    have hunmatched := hpairs.mem_iff.mpr (List.mem_append_left _ (mem_sort.mp hitem))
    exact (mem_unmatched.mp hunmatched).1
  · intro change hchange
    exact mem_of_mem_matched (mem_altered.mp (mem_sort.mp hchange)).1
  · intro change hchange
    obtain ⟨hold, hnew⟩ := mem_of_mem_pairOff (mem_sort.mp hchange)
    exact ⟨(mem_unmatched.mp hold).1, (mem_unmatched.mp hnew).1⟩

end Delta

theorem Table.columnDelta_within (old new : Table) :
    (columnDelta old new).Within old.columns new.columns := by
  have hplaced := (Delta.between_within PlacedColumn.unchanged PlacedColumn.mates
    (old.placedColumns new) (new.placedColumns old)).map (·.column)
  rw [placedColumns_map_column, placedColumns_map_column] at hplaced
  exact hplaced

namespace Schema

variable {old new : Schema}

theorem mem_of_mem_added {table : Table} (h : table ∈ (old.diff new).added) :
    table ∈ new.tableList := by
  have hunmatched := (pairOff_added_perm Table.tablesMate _ _).mem_iff.mpr
    (List.mem_append_left _ h)
  exact (Delta.mem_unmatched.mp hunmatched).1

theorem newName_diff_of_mem_pairOff {a b : Table}
    (hold : a ∈ Delta.unmatched old.tableList new.tableList)
    (hnew : b ∈ Delta.unmatched new.tableList old.tableList) :
    (a.diff b).newName = some b.name := by
  have hne : key b ≠ key a := by
    have hnone := (Delta.mem_unmatched.mp hold).2
    exact lookup_eq_none_iff.mp hnone b (Delta.mem_unmatched.mp hnew).1
  have hnames : ¬sameName a.name b.name = true := fun hsame => hne (sameName_iff.mp hsame).symm
  exact if_neg hnames

theorem differ_of_mem_replacedTables {change : Change Table} (h : change ∈ replacedTables old new) :
    change.old ∈ old.tableList ∧ change.new ∈ new.tableList ∧
      (change.old.diff change.new).isEmpty = false := by
  rcases List.mem_append.mp (Delta.mem_sort.mp h) with haltered | hpaired
  · obtain ⟨hmatched, hdiffers⟩ := Delta.mem_altered.mp haltered
    obtain ⟨hold, hnew⟩ := Delta.mem_of_mem_matched hmatched
    exact ⟨hold, hnew, hdiffers⟩
  · obtain ⟨hold, hnew⟩ := mem_of_mem_pairOff hpaired
    have hname := newName_diff_of_mem_pairOff hold hnew
    have hdiffers : (change.old.diff change.new).isEmpty = false := by
      simp [TableDiff.isEmpty, hname]
    exact ⟨(Delta.mem_unmatched.mp hold).1, (Delta.mem_unmatched.mp hnew).1, hdiffers⟩

/-- A changed table is the difference of a table of either side. -/
theorem exists_of_mem_changed {table : TableDiff} (h : table ∈ (old.diff new).changed) :
    ∃ a ∈ old.tableList, ∃ b ∈ new.tableList, a.diff b = table ∧ table.isEmpty = false := by
  rw [diff_changed] at h
  obtain ⟨change, hchange, rfl⟩ := List.mem_map.mp h
  obtain ⟨hold, hnew, hdiffers⟩ := differ_of_mem_replacedTables hchange
  exact ⟨change.old, hold, change.new, hnew, rfl, hdiffers⟩

end Schema

end SchemaDelta
