import Mathlib.Data.Finset.Insert
import SchemaDelta.Proofs.Diff.Conservation

/-!
# What counts as renamed

Things without a counterpart are renamed by classes.  Tables with the same column
names are of one class, and so are columns of one kind in one gap, and indexes
and foreign keys that agree in all but the name.  Empty tables and primary keys are
of no class.  In each class the first old thing without a counterpart becomes the
first new one, the second the second, until one side has nothing left.
-/

namespace SchemaDelta

open Named

/-! ## Renaming by classes -/

/-- Renaming by the classes that things have on the old and on the new side.  Those
without a counterpart, `gone` and `come`, are paired by their rank in their class;
`removed` and `added` is what is left of them. -/
structure RenamesByClass {α γ : Type} [DecidableEq γ] (oldClass newClass : α → Option γ)
    (gone come removed added : List α) (renamed : List (Change α)) : Prop where
  sound : ∀ change ∈ renamed,
    oldClass change.old ≠ none ∧ oldClass change.old = newClass change.new
  maximal : ∀ old ∈ removed, ∀ new ∈ added,
    ¬ (oldClass old ≠ none ∧ oldClass old = newClass new)
  ranked : ∀ change : Change α, change ∈ renamed ↔ ∃ (cls : γ) (rank : Nat),
    (gone.filter (oldClass · = some cls))[rank]? = some change.old ∧
      (come.filter (newClass · = some cls))[rank]? = some change.new

namespace RenamesByClass

variable {α β γ : Type} [DecidableEq γ] {oldClass newClass : α → Option γ}
  {gone come removed added removed' added' : List α} {renamed renamed' : List (Change α)}

theorem perm (h : RenamesByClass oldClass newClass gone come removed added renamed)
    (hremoved : removed.Perm removed') (hadded : added.Perm added')
    (hrenamed : renamed.Perm renamed') :
    RenamesByClass oldClass newClass gone come removed' added' renamed' where
  sound := fun change hmem => h.sound change (hrenamed.mem_iff.mpr hmem)
  maximal := fun old hold new hnew =>
    h.maximal old (hremoved.mem_iff.mpr hold) new (hadded.mem_iff.mpr hnew)
  ranked := fun change => hrenamed.mem_iff.symm.trans (h.ranked change)

/-- What is in no class can be left out. -/
theorem congr_filter {gone' come' : List α}
    (h : RenamesByClass oldClass newClass gone come removed added renamed)
    (hgone : ∀ cls, gone.filter (oldClass · = some cls) = gone'.filter (oldClass · = some cls))
    (hcome : ∀ cls, come.filter (newClass · = some cls) = come'.filter (newClass · = some cls)) :
    RenamesByClass oldClass newClass gone' come' removed added renamed where
  sound := h.sound
  maximal := h.maximal
  ranked := fun change => by simpa only [← hgone, ← hcome] using h.ranked change

/-- The greedy pairing is by rank when mates are what is of one class. -/
theorem of_pairOff {cls : α → Option γ} {mates : α → α → Bool} (hclasses : MateClasses mates)
    (gone come : List α) (hmates : ∀ a b, a ∈ gone ++ come → b ∈ gone ++ come →
      (mates a b = true ↔ cls a ≠ none ∧ cls a = cls b)) :
    RenamesByClass cls cls gone come (pairOff mates gone come).removed
      (pairOff mates gone come).added (pairOff mates gone come).pairs := by
  have hgone : ∀ {old}, old ∈ gone → old ∈ gone ++ come := List.mem_append_left come
  have hcome : ∀ {new}, new ∈ come → new ∈ gone ++ come := List.mem_append_right gone
  have hfilter : ∀ items : List α, items ⊆ gone ++ come → ∀ a c, a ∈ gone ++ come →
      cls a = some c → items.filter (mates a) = items.filter (cls · = some c) := by
    intro items hitems a c ha hcls
    refine List.filter_congr fun b hb => Bool.eq_iff_iff.mpr ?_
    rw [hmates a b ha (hitems hb), hcls, decide_eq_true_iff, eq_comm (a := some c)]
    simp
  have hpairs : ∀ change ∈ (pairOff mates gone come).pairs,
      change.old ∈ gone ∧ change.new ∈ come := fun change hmem =>
    ⟨(pairOff_removed_perm mates gone come).mem_iff.mpr
        (List.mem_append_right _ (List.mem_map_of_mem hmem)),
      (pairOff_added_perm mates gone come).mem_iff.mpr
        (List.mem_append_right _ (List.mem_map_of_mem hmem))⟩
  have hsound : ∀ change ∈ (pairOff mates gone come).pairs,
      cls change.old ≠ none ∧ cls change.old = cls change.new := fun change hmem =>
    (hmates _ _ (hgone (hpairs change hmem).1) (hcome (hpairs change hmem).2)).mp
      (mates_of_mem_pairOff hmem)
  refine ⟨hsound, fun old hold new hnew hclass => ?_, fun change => ⟨fun hmem => ?_, ?_⟩⟩
  · have hnot := not_mates_of_left hclasses hold hnew
    rw [(hmates _ _ (hgone ((pairOff_removed_sublist mates gone come).subset hold))
      (hcome ((pairOff_added_sublist mates gone come).subset hnew))).mpr hclass] at hnot
    cases hnot
  · have hold := hgone (hpairs change hmem).1
    obtain ⟨c, hc⟩ := Option.ne_none_iff_exists'.mp (hsound change hmem).1
    obtain ⟨rank, hranks⟩ := (mem_pairs_iff_rank hclasses).mp hmem
    rw [hfilter _ (List.subset_append_left _ _) _ c hold hc,
      hfilter _ (List.subset_append_right _ _) _ c hold hc] at hranks
    exact ⟨c, rank, hranks⟩
  · rintro ⟨c, rank, hranks⟩
    obtain ⟨holdMem, holdClass⟩ := List.mem_filter.mp (List.mem_of_getElem? hranks.1)
    have hc : cls change.old = some c := of_decide_eq_true holdClass
    rw [← hfilter _ (List.subset_append_left _ _) _ c (hgone holdMem) hc,
      ← hfilter _ (List.subset_append_right _ _) _ c (hgone holdMem) hc] at hranks
    exact (mem_pairs_iff_rank hclasses).mpr ⟨rank, hranks⟩

/-- Renaming is not affected when things are seen as parts of others that have
their classes. -/
theorem map {f : α → β} {cls : α → Option γ} {oldClass' newClass' : β → Option γ}
    (h : RenamesByClass cls cls gone come removed added renamed)
    (hold : ∀ item ∈ gone, oldClass' (f item) = cls item)
    (hnew : ∀ item ∈ come, newClass' (f item) = cls item)
    (hremoved : removed ⊆ gone) (hadded : added ⊆ come) :
    RenamesByClass oldClass' newClass' (gone.map f) (come.map f) (removed.map f) (added.map f)
      (renamed.map (Change.map f)) := by
  have hfilter : ∀ {items : List α} {cls' : β → Option γ},
      (∀ item ∈ items, cls' (f item) = cls item) → ∀ c,
        (items.map f).filter (cls' · = some c) = (items.filter (cls · = some c)).map f := by
    intro items cls' hclass c
    rw [List.filter_map]
    exact congrArg _ (List.filter_congr fun item hitem => by simp [hclass item hitem])
  have hmem : ∀ {items : List α} {c : γ} {rank : Nat} {item : α},
      (items.filter (cls · = some c))[rank]? = some item → item ∈ items := fun hrank =>
    (List.mem_filter.mp (List.mem_of_getElem? hrank)).1
  constructor
  · rw [List.forall_mem_map]
    intro change hchange
    obtain ⟨c, rank, hranks⟩ := (h.ranked change).mp hchange
    rw [Change.map, hold _ (hmem hranks.1), hnew _ (hmem hranks.2)]
    exact h.sound change hchange
  · simp only [List.forall_mem_map]
    intro old holdMem new hnewMem
    rw [hold _ (hremoved holdMem), hnew _ (hadded hnewMem)]
    exact h.maximal old holdMem new hnewMem
  · intro change
    simp only [hfilter hold, hfilter hnew, List.getElem?_map, Option.map_eq_some_iff, List.mem_map]
    constructor
    · rintro ⟨change, hchange, rfl⟩
      obtain ⟨c, rank, hranks⟩ := (h.ranked change).mp hchange
      exact ⟨c, rank, ⟨_, hranks.1, rfl⟩, ⟨_, hranks.2, rfl⟩⟩
    · rintro ⟨c, rank, ⟨old, hrankOld, hfold⟩, ⟨new, hrankNew, hfnew⟩⟩
      refine ⟨⟨old, new⟩, (h.ranked _).mpr ⟨c, rank, hrankOld, hrankNew⟩, ?_⟩
      rw [Change.map, hfold, hfnew]

end RenamesByClass

/-! ## The classes of this library -/

/-- The names of the columns, if there are any. -/
def Table.renameClass? (table : Table) : Option (Finset String) :=
  if table.columns = [] then none else some (table.columns.map key).toFinset

/-- The nearest column in front of a column that another version of the table has,
too. -/
def Table.nearestKept? (table other : Table) (column : Column) : Option String :=
  ((table.columns.takeWhile fun c => key c ≠ key column).filter fun c =>
    Named.contains c.name other.columns).getLast?.map key

/-- The kind of a column and the gap it is in. -/
def Table.columnClass (table other : Table) (column : Column) :
    Option (ColumnKind × Option String) :=
  some (column.kind, table.nearestKept? other column)

def Index.renameClass? (index : Index) : Option (IndexKind × List String) :=
  if index.isPrimary then none else some (index.kind, index.columns.map lowerCase)

/-- Everything but the name. -/
def ForeignKey.renameClass (foreignKey : ForeignKey) :
    Option (List String × String × List String × ReferentialAction × ReferentialAction) :=
  some (foreignKey.columns.map lowerCase, lowerCase foreignKey.referencedTable,
    foreignKey.referencedColumns.map lowerCase, foreignKey.onUpdate, foreignKey.onDelete)

/-! ## Mates are of one class -/

theorem Table.columnSignature_eq_iff {a b : Table} (ha : Distinct a.columns)
    (hb : Distinct b.columns) :
    a.columnSignature = b.columnSignature ↔
      (a.columns.map key).toFinset = (b.columns.map key).toFinset := by
  rw [distinct_iff_nodup] at ha hb
  have hsorted : ∀ items : List String, (items.mergeSort (· ≤ ·)).Pairwise (· ≤ ·) := by
    intro items
    refine (List.pairwise_mergeSort ?_ ?_ items).imp of_decide_eq_true
    · intro x y z hxy hyz
      exact decide_eq_true (String.le_trans (of_decide_eq_true hxy) (of_decide_eq_true hyz))
    · intro x y
      simpa using String.le_total x y
  have hperm : ∀ table : Table, table.columnSignature.Perm (table.columns.map key) :=
    fun table => List.mergeSort_perm _ _
  constructor
  · intro heq
    exact List.toFinset_eq_of_perm _ _ ((hperm a).symm.trans (heq ▸ hperm b))
  · intro heq
    refine List.Perm.eq_of_pairwise (fun _ _ _ _ => String.le_antisymm) (hsorted _) (hsorted _) ?_
    exact (hperm a).trans ((List.perm_of_nodup_nodup_toFinset_eq ha hb heq).trans (hperm b).symm)

theorem Table.tablesMate_iff_class {a b : Table} (ha : Distinct a.columns)
    (hb : Distinct b.columns) :
    a.tablesMate b = true ↔ a.renameClass? ≠ none ∧ a.renameClass? = b.renameClass? := by
  have hempty : ∀ table : Table, table.columnSignature = [] ↔ table.columns = [] := fun table => by
    rw [columnSignature, ← List.length_eq_zero_iff, List.length_mergeSort, List.length_map,
      List.length_eq_zero_iff]
  rw [tablesMate_iff, columnSignature_eq_iff ha hb, Ne, hempty]
  unfold renameClass?
  by_cases haEmpty : a.columns = []
  · simp [haEmpty]
  · by_cases hbEmpty : b.columns = []
    · have hne : (a.columns.map key).toFinset ≠ ∅ := by
        rwa [Ne, List.toFinset_eq_empty_iff, List.map_eq_nil_iff]
      simp [haEmpty, hbEmpty, hne]
    · simp [haEmpty, hbEmpty]

theorem Table.indexesMate_iff_class {a b : Index} :
    indexesMate a b = true ↔ a.renameClass? ≠ none ∧ a.renameClass? = b.renameClass? := by
  rw [indexesMate_iff, Index.Same.iff_kind_columns]
  unfold Index.renameClass?
  cases a.isPrimary <;> cases b.isPrimary <;> simp

theorem ForeignKey.sameDefinition_iff_class {a b : ForeignKey} :
    a.sameDefinition b = true ↔ a.renameClass ≠ none ∧ a.renameClass = b.renameClass := by
  rw [show a.sameDefinition b = true ↔ _ from Same.iff_fields]
  simp [renameClass]

/-- The class of a column in its place. -/
def PlacedColumn.renameClass (placed : PlacedColumn) : Option (ColumnKind × Option String) :=
  some (placed.column.kind, placed.place)

theorem PlacedColumn.mates_iff_class {a b : PlacedColumn} :
    a.mates b = true ↔ a.renameClass ≠ none ∧ a.renameClass = b.renameClass := by
  simp [mates, renameClass]

/-! ## Columns and their places -/

/-- Walking over the columns finds the nearest kept one in front of each. -/
theorem PlacedColumn.place_of_mem_placeAll {others columns : List Column} {place : Option String}
    (hdistinct : Distinct columns) {placed : PlacedColumn}
    (h : placed ∈ placeAll others place columns) :
    placed.place = (((columns.takeWhile fun c => key c ≠ key placed.column).filter fun c =>
      Named.contains c.name others).getLast?.map key).or place := by
  induction columns generalizing place with
  | nil => cases h
  | cons column columns ih =>
      obtain ⟨hfree, hrest⟩ := distinct_cons.mp hdistinct
      rcases List.mem_cons.mp h with rfl | h
      · simp
      · have hmem : placed.column ∈ columns := by
          have hmap := List.mem_map_of_mem (f := PlacedColumn.column) h
          rwa [placeAll_map_column] at hmap
        have hne : key column ≠ key placed.column := fun heq =>
          lookup_eq_none_iff.mp hfree placed.column hmem heq.symm
        rw [ih hrest h, List.takeWhile_cons_of_pos (by simpa using hne), List.filter_cons]
        split
        next =>
          rw [List.getLast?_cons]
          cases List.getLast? _ <;> rfl
        next => rfl

namespace Table

variable {old new : Table}

theorem placedColumns_renameClass (hold : old.Coherent) {placed : PlacedColumn}
    (h : placed ∈ old.placedColumns new) :
    old.columnClass new placed.column = placed.renameClass := by
  have hplace := PlacedColumn.place_of_mem_placeAll hold.columns h
  rw [Option.or_none] at hplace
  exact congrArg (fun place => some (placed.column.kind, place)) hplace.symm

theorem unmatched_placedColumns (old new : Table) :
    (Delta.unmatched (old.placedColumns new) (new.placedColumns old)).map (·.column) =
      Delta.unmatched old.columns new.columns := by
  have hcontains : ∀ wanted, contains wanted (new.placedColumns old) =
      contains wanted new.columns := fun wanted => by
    rw [contains_eq_isSome, contains_eq_isSome, lookup_columns_eq new old, Option.isSome_map]
  conv_rhs => rw [← placedColumns_map_column old new]
  rw [Delta.unmatched, Delta.unmatched, List.filter_map]
  simp only [hcontains]
  rfl

/-- The primary key has no part in renaming, neither as what is renamed nor as the
counterpart of another index. -/
theorem Coherent.unmatched_indexes (hold : old.Coherent) (hnew : new.Coherent)
    (cls : IndexKind × List String) :
    (Delta.unmatched old.allIndexes new.allIndexes).filter (·.renameClass? = some cls) =
      (Delta.unmatched old.indexes new.indexes).filter (·.renameClass? = some cls) := by
  have hprimary : old.primaryKey.toList.filter (·.renameClass? = some cls) = [] := by
    rw [List.filter_eq_nil_iff]
    intro index hindex
    rw [hold.primary index (Option.mem_toList.mp hindex)]
    simp [Index.renameClass?, Index.isPrimary, Index.primary]
  have hindexes : Delta.unmatched old.indexes new.allIndexes =
      Delta.unmatched old.indexes new.indexes := by
    refine List.filter_congr fun index hindex => ?_
    have hlookup : lookup new.allIndexes (key index) = lookup new.indexes (key index) :=
      hnew.lookup_secondary (hold.secondary index hindex).2
    rw [contains_eq_isSome, contains_eq_isSome]
    exact congrArg (fun found => !Option.isSome found) hlookup
  unfold Delta.unmatched at hindexes ⊢
  rw [show old.allIndexes = old.primaryKey.toList ++ old.indexes from rfl, List.filter_append,
    List.filter_append, hindexes, List.filter_comm, hprimary]
  rfl

end Table

/-! ## Tables -/

/-- Renaming by classes in which the things stand in the order of their names. -/
structure RenamesInNameOrder {α γ : Type} [Named α] [DecidableEq γ] (cls : α → Option γ)
    (gone come removed added : List α) (renamed : List (Change α)) : Prop
    extends RenamesByClass cls cls gone come removed added renamed where
  goneOrder : Ascending gone
  comeOrder : Ascending come

/-- What is renamed between two tables: columns in the order of their declaration,
indexes and foreign keys in the order of their names. -/
structure TableDiff.Renames (old new : Table) (diff : TableDiff) : Prop where
  columns : RenamesByClass (old.columnClass new) (new.columnClass old)
    (Delta.unmatched old.columns new.columns) (Delta.unmatched new.columns old.columns)
    diff.columns.removed diff.columns.added diff.columns.renamed
  indexes : RenamesInNameOrder Index.renameClass?
    (Delta.unmatched old.indexes new.indexes) (Delta.unmatched new.indexes old.indexes)
    diff.indexes.removed diff.indexes.added diff.indexes.renamed
  foreignKeys : RenamesInNameOrder ForeignKey.renameClass
    (Delta.unmatched old.foreignKeys new.foreignKeys)
    (Delta.unmatched new.foreignKeys old.foreignKeys)
    diff.foreignKeys.removed diff.foreignKeys.added diff.foreignKeys.renamed

namespace Table

variable {old new : Table}

theorem columnDelta_renames (hold : old.Coherent) (hnew : new.Coherent) :
    RenamesByClass (old.columnClass new) (new.columnClass old)
      (Delta.unmatched old.columns new.columns) (Delta.unmatched new.columns old.columns)
      (columnDelta old new).removed (columnDelta old new).added (columnDelta old new).renamed := by
  have hplaced := RenamesByClass.of_pairOff PlacedColumn.mateClasses
    (Delta.unmatched (old.placedColumns new) (new.placedColumns old))
    (Delta.unmatched (new.placedColumns old) (old.placedColumns new))
    fun _ _ _ _ => PlacedColumn.mates_iff_class
  have hcolumns : RenamesByClass (old.columnClass new) (new.columnClass old) _ _ _ _ _ :=
    hplaced.map (f := PlacedColumn.column)
      (fun placed hmem => placedColumns_renameClass hold (List.mem_of_mem_filter hmem))
      (fun placed hmem => placedColumns_renameClass hnew (List.mem_of_mem_filter hmem))
      (pairOff_removed_sublist ..).subset (pairOff_added_sublist ..).subset
  rw [unmatched_placedColumns, unmatched_placedColumns] at hcolumns
  exact hcolumns.perm ((Delta.sort_perm _).symm.map _) ((Delta.sort_perm _).symm.map _)
    ((Delta.sort_perm _).symm.map _)

theorem indexDelta_renames (hold : old.Coherent) (hnew : new.Coherent) :
    RenamesByClass Index.renameClass? Index.renameClass?
      (Delta.unmatched old.indexes new.indexes) (Delta.unmatched new.indexes old.indexes)
      (indexDelta old new).removed (indexDelta old new).added (indexDelta old new).renamed := by
  have hall := RenamesByClass.of_pairOff indexesMate_mateClasses
    (Delta.unmatched old.allIndexes new.allIndexes)
    (Delta.unmatched new.allIndexes old.allIndexes)
    fun _ _ _ _ => indexesMate_iff_class
  exact (hall.congr_filter (hold.unmatched_indexes hnew) (hnew.unmatched_indexes hold)).perm
    (Delta.sort_perm _).symm (Delta.sort_perm _).symm (Delta.sort_perm _).symm

theorem renames_diff (hold : old.Coherent) (hnew : new.Coherent) :
    (old.diff new).Renames old new := by
  have hforeignKeys := RenamesByClass.of_pairOff ForeignKey.sameDefinition_mateClasses
    (Delta.unmatched old.foreignKeys new.foreignKeys)
    (Delta.unmatched new.foreignKeys old.foreignKeys)
    fun _ _ _ _ => ForeignKey.sameDefinition_iff_class
  exact {
    columns := columnDelta_renames hold hnew
    indexes := {
      toRenamesByClass := indexDelta_renames hold hnew
      goneOrder := hold.indexes.sublist List.filter_sublist
      comeOrder := hnew.indexes.sublist List.filter_sublist }
    foreignKeys := {
      toRenamesByClass := hforeignKeys
      goneOrder := hold.foreignKeys.sublist List.filter_sublist
      comeOrder := hnew.foreignKeys.sublist List.filter_sublist } }

end Table

/-! ## Schemas -/

namespace Schema

variable {a b : Schema}

/-- The pairs of tables that do not keep their names are the mates among the
tables without counterparts. -/
theorem replacedTables_renamed (a b : Schema) :
    ((replacedTables a b).filter fun change => !sameName change.old.name change.new.name).Perm
      (pairOff Table.tablesMate (Delta.unmatched a.tableList b.tableList)
        (Delta.unmatched b.tableList a.tableList)).pairs := by
  have haltered : (Delta.altered (fun s t : Table => (s.diff t).isEmpty) a.tableList
      b.tableList).filter (fun change => !sameName change.old.name change.new.name) = [] := by
    rw [List.filter_eq_nil_iff]
    intro change hmem
    have hsame : sameName change.old.name change.new.name = true :=
      sameName_iff.mpr (Delta.key_of_mem_matched (Delta.mem_altered.mp hmem).1).symm
    simp [hsame]
  have hpairs : (pairOff Table.tablesMate (Delta.unmatched a.tableList b.tableList)
      (Delta.unmatched b.tableList a.tableList)).pairs.filter
        (fun change => !sameName change.old.name change.new.name) =
      (pairOff Table.tablesMate (Delta.unmatched a.tableList b.tableList)
        (Delta.unmatched b.tableList a.tableList)).pairs := by
    rw [List.filter_eq_self]
    intro change hmem
    have hold := (pairOff_removed_perm Table.tablesMate _ _).mem_iff.mpr
      (List.mem_append_right _ (List.mem_map_of_mem hmem))
    have hnew := (pairOff_added_perm Table.tablesMate _ _).mem_iff.mpr
      (List.mem_append_right _ (List.mem_map_of_mem hmem))
    have hne : sameName change.old.name change.new.name ≠ true := fun hsame =>
      lookup_eq_none_iff.mp (Delta.mem_unmatched.mp hold).2 change.new
        (Delta.mem_unmatched.mp hnew).1 (sameName_iff.mp hsame).symm
    simpa using hne
  have hperm := (Delta.sort_perm (Delta.altered (fun s t : Table => (s.diff t).isEmpty)
    a.tableList b.tableList ++ (pairOff Table.tablesMate
      (Delta.unmatched a.tableList b.tableList)
        (Delta.unmatched b.tableList a.tableList)).pairs)).filter
      fun change => !sameName change.old.name change.new.name
  rwa [List.filter_append, haltered, hpairs, List.nil_append] at hperm

/-- Tables, and columns, indexes and foreign keys of any two tables, are renamed by
their classes: soundly, as far as possible, and by rank. -/
theorem diff_renames (ha : a.Built) (hb : b.Built) :
    (∃ renamed : List (Change Table),
      ((a.diff b).changed.filter fun diff => diff.newName.isSome) =
        renamed.map (fun change => change.old.diff change.new) ∧
      RenamesInNameOrder Table.renameClass? (Delta.unmatched a.tableList b.tableList)
        (Delta.unmatched b.tableList a.tableList) (a.diff b).removed (a.diff b).added renamed) ∧
      ∀ old ∈ a.tableList, ∀ new ∈ b.tableList, (old.diff new).Renames old new := by
  have ha := ha.wellFormed.coherent
  have hb := hb.wellFormed.coherent
  refine ⟨⟨(replacedTables a b).filter fun change => !sameName change.old.name change.new.name,
    ?_, ?_⟩, fun old hold new hnew => Table.renames_diff (ha.tables old hold) (hb.tables new hnew)⟩
  · rw [diff_changed, List.filter_map]
    refine congrArg _ (List.filter_congr fun change _ => ?_)
    cases hsame : sameName change.old.name change.new.name <;> simp [Table.diff, hsame]
  · have hcolumns : ∀ table ∈ Delta.unmatched a.tableList b.tableList ++
        Delta.unmatched b.tableList a.tableList, Distinct table.columns := fun table hmem =>
      (List.mem_append.mp hmem).elim (fun h => (ha.tables table (List.mem_of_mem_filter h)).columns)
        fun h => (hb.tables table (List.mem_of_mem_filter h)).columns
    have htables := RenamesByClass.of_pairOff Table.tablesMate_mateClasses _ _
      fun s t hs ht => Table.tablesMate_iff_class (hcolumns s hs) (hcolumns t ht)
    exact {
      toRenamesByClass := htables.perm .rfl .rfl (replacedTables_renamed a b).symm
      goneOrder := ha.keyed.ascending.sublist List.filter_sublist
      comeOrder := hb.keyed.ascending.sublist List.filter_sublist }

/-- Two tables that could become any of three others. -/
theorem diff_renames_competing :
    ((ofNames ["a", "b"]).diff (ofNames ["c", "D", "e"])).changed.map (·.newName) =
        [some "c", some "D"] ∧
      ∃ renamed : List (Change Table),
        (((ofNames ["a", "b"]).diff (ofNames ["c", "D", "e"])).changed.filter
            fun diff => diff.newName.isSome) =
          renamed.map (fun change => change.old.diff change.new) ∧
        RenamesInNameOrder Table.renameClass?
          (Delta.unmatched (ofNames ["a", "b"]).tableList (ofNames ["c", "D", "e"]).tableList)
          (Delta.unmatched (ofNames ["c", "D", "e"]).tableList (ofNames ["a", "b"]).tableList)
          ((ofNames ["a", "b"]).diff (ofNames ["c", "D", "e"])).removed
          ((ofNames ["a", "b"]).diff (ofNames ["c", "D", "e"])).added renamed :=
  ⟨by cbv, (diff_renames (ofNames_built ["a", "b"] (by decide))
    (ofNames_built ["c", "D", "e"] (by decide))).1⟩

end Schema

end SchemaDelta
