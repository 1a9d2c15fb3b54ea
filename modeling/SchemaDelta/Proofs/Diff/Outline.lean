import Mathlib.Data.List.Forall2
import SchemaDelta.Build.Schema
import SchemaDelta.Proofs.Build.Shown

/-!
# What reports show of a table

A report consists of entries, and an entry stands under the last one in front of it that is
less deep.  Under a changed table stand the properties in which the versions of its changed
columns differ.  The entry of a renamed column has its two names and nothing under it, so
what else differs between its versions is shown only by chance: when the versions of a
changed column of the table differ in the same way.
-/

namespace SchemaDelta

namespace Report

/-! ## Entries -/

structure Entry where
  depth : Nat
  text : String
  deriving DecidableEq

def render (entries : List Entry) : String :=
  String.join (entries.map fun entry => line entry.depth entry.text)

@[simp] theorem render_cons (entry : Entry) (entries : List Entry) :
    render (entry :: entries) = line entry.depth entry.text ++ render entries :=
  String.join_cons

@[simp] theorem render_append (front back : List Entry) :
    render (front ++ back) = render front ++ render back := by
  rw [render, List.map_append, String.join_append]
  rfl

theorem render_map {α : Type} (items : List α) (entry : α → Entry) :
    render (items.map entry)
      = String.join (items.map fun item => line (entry item).depth (entry item).text) := by
  rw [render, List.map_map]
  rfl

theorem render_flatMap {α : Type} (items : List α) (entries : α → List Entry) :
    render (items.flatMap entries) = String.join (items.map fun item => render (entries item)) := by
  induction items with
  | nil => rfl
  | cons item items ih =>
      rw [List.flatMap_cons, render_append, ih, List.map_cons, String.join_cons]

section Listed

variable {α : Type}

/-- A title and an entry for each item, unless there are none. -/
def listed (depth : Nat) (title : String) (items : List α) (entry : α → String) : List Entry :=
  if items.isEmpty then []
  else ⟨depth, title⟩ :: items.map fun item => ⟨depth + 1, "* " ++ entry item⟩

theorem render_listed (depth : Nat) (title : String) (items : List α) (entry : α → String) :
    render (listed depth title items entry) = listing depth title items entry := by
  unfold listed listing
  split
  next => rfl
  next => rw [render_cons, render_map]

theorem mem_listed {depth : Nat} {title : String} {items : List α} {entry : α → String}
    {listedEntry : Entry} (h : listedEntry ∈ listed depth title items entry) :
    listedEntry = ⟨depth, title⟩ ∨ listedEntry.depth = depth + 1 := by
  unfold listed at h
  split at h
  next => cases h
  next =>
    rcases List.mem_cons.mp h with rfl | h
    · exact .inl rfl
    · obtain ⟨item, -, rfl⟩ := List.mem_map.mp h
      exact .inr rfl

end Listed

/-! ## Entries of columns -/

def propertyEntry (change : Change Column) (property : ColumnProperty) : Entry :=
  ⟨4, "* " ++ property.label ++ ": "
    ++ arrow (displayValue property (property.valueOf change.old))
      (displayValue property (property.valueOf change.new))⟩

def changedColumnEntries (change : Change Column) : List Entry :=
  ⟨3, change.new.name⟩ :: (change.old.differences change.new).map (propertyEntry change)

def changedColumnsEntries (changes : List (Change Column)) : List Entry :=
  if changes.isEmpty then []
  else ⟨2, "Changed columns"⟩ :: changes.flatMap changedColumnEntries

theorem render_changedColumnsEntries (changes : List (Change Column)) :
    render (changedColumnsEntries changes) = changedColumns changes := by
  have hcolumn : ∀ change, render (changedColumnEntries change) = changedColumn change := by
    intro change
    rw [changedColumnEntries, render_cons, render_map]
    rfl
  unfold changedColumnsEntries changedColumns
  split
  next => rfl
  next => rw [render_cons, render_flatMap, funext hcolumn]

/-- An entry tells which property it is about. -/
theorem propertyEntry_inj {change other : Change Column} {property same : ColumnProperty}
    (h : propertyEntry other same = propertyEntry change property) : same = property := by
  have hcolon : ∀ property : ColumnProperty, ':' ∉ property.label.toList := by
    intro property
    cases property <;> decide
  have htext := congrArg String.toList (Entry.mk.inj h).2
  simp only [String.append_assoc, String.toList_append] at htext
  have hlabel := (ColumnProperty.append_mark_inj (hcolon same) (hcolon property)
    (List.append_cancel_left htext)).1
  have hlabels : ∀ property same : ColumnProperty, same.label = property.label →
      same = property := by
    intro property same
    cases property <;> cases same <;> decide
  exact hlabels property same (String.toList_inj.mp hlabel)

/-! ## Entries of tables -/

def columnEntries (delta : Delta Column) : List Entry :=
  listed 2 "Added columns" delta.added (fun column =>
      column.name ++ ": " ++ column.typeSummary)
    ++ changedColumnsEntries delta.changed
    ++ listed 2 "Renamed columns" delta.renamed (fun change =>
      arrow change.old.name change.new.name)
    ++ listed 2 "Removed columns" delta.removed Column.name

def indexEntries (delta : Delta Index) : List Entry :=
  listed 2 "Added indexes" delta.added describeIndex
    ++ listed 2 "Changed indexes" delta.changed (fun change =>
      arrow (describeIndex change.old) (describeIndex change.new))
    ++ listed 2 "Renamed indexes" delta.renamed (fun change =>
      arrow change.old.name change.new.name)
    ++ listed 2 "Removed indexes" delta.removed Index.name

def foreignKeyEntries (delta : Delta ForeignKey) : List Entry :=
  listed 2 "Added foreign keys" delta.added describeForeignKey
    ++ listed 2 "Changed foreign keys" delta.changed (fun change =>
      describeForeignKey change.new)
    ++ listed 2 "Renamed foreign keys" delta.renamed (fun change =>
      arrow change.old.name change.new.name)
    ++ listed 2 "Removed foreign keys" delta.removed ForeignKey.name

def tableHeader (table : TableDiff) : Entry :=
  ⟨1, match table.newName with
    | some newName => arrow table.name newName
    | none => table.name⟩

/-- What stands under the header of a table. -/
def tableBody (table : TableDiff) : List Entry :=
  columnEntries table.columns ++ indexEntries table.indexes
    ++ foreignKeyEntries table.foreignKeys

theorem render_tableEntries (diff : TableDiff) :
    render (tableHeader diff :: tableBody diff) = table diff := by
  have hcolumns : render (columnEntries diff.columns) = columns diff.columns := by
    simp only [columnEntries, columns, render_append, render_listed,
      render_changedColumnsEntries]
  have hindexes : render (indexEntries diff.indexes) = indexes diff.indexes := by
    simp only [indexEntries, indexes, render_append, render_listed]
  have hkeys : render (foreignKeyEntries diff.foreignKeys) = foreignKeys diff.foreignKeys := by
    simp only [foreignKeyEntries, foreignKeys, render_append, render_listed]
  rw [tableBody, render_cons, render_append, render_append, hcolumns, hindexes, hkeys,
    ← String.append_assoc, ← String.append_assoc]
  rfl

/-- The properties shown under a table, in order, are those of its changed columns. -/
theorem filter_tableBody (table : TableDiff) :
    (tableBody table).filter (·.depth = 4) = table.columns.changed.flatMap fun change =>
      (change.old.differences change.new).map (propertyEntry change) := by
  have hlisted : ∀ {α : Type} (title : String) (items : List α) (entry : α → String),
      (listed 2 title items entry).filter (·.depth = 4) = [] := by
    intro α title items entry
    refine List.filter_eq_nil_iff.mpr fun listedEntry hmem => ?_
    rcases mem_listed hmem with rfl | hdepth <;> simp_all
  have hchanged : (changedColumnsEntries table.columns.changed).filter (·.depth = 4)
      = table.columns.changed.flatMap fun change =>
        (change.old.differences change.new).map (propertyEntry change) := by
    have hcolumn : ∀ change, (changedColumnEntries change).filter (·.depth = 4)
        = (change.old.differences change.new).map (propertyEntry change) := by
      intro change
      rw [changedColumnEntries, List.filter_cons_of_neg (by simp)]
      refine List.filter_eq_self.mpr fun entry hmem => ?_
      obtain ⟨property, -, rfl⟩ := List.mem_map.mp hmem
      rfl
    unfold changedColumnsEntries
    split
    next hnil => simp [List.isEmpty_iff.mp hnil]
    next =>
      rw [List.filter_cons_of_neg (by simp), List.filter_flatMap]
      exact congrArg (List.flatMap · _) (funext hcolumn)
  simp only [tableBody, columnEntries, indexEntries, foreignKeyEntries, List.filter_append,
    hlisted, hchanged, List.append_nil, List.nil_append]

theorem depth_tableBody (table : TableDiff) : ∀ entry ∈ tableBody table, 1 < entry.depth := by
  have hlisted : ∀ {α : Type} (title : String) (items : List α) (text : α → String),
      ∀ entry ∈ listed 2 title items text, 1 < entry.depth := by
    intro α title items text entry hmem
    rcases mem_listed hmem with rfl | hdepth
    · exact Nat.one_lt_two
    · omega
  have hchanged : ∀ entry ∈ changedColumnsEntries table.columns.changed, 1 < entry.depth := by
    unfold changedColumnsEntries
    split
    next => simp
    next =>
      simp only [List.forall_mem_cons, List.forall_mem_flatMap, changedColumnEntries,
        List.forall_mem_map, propertyEntry]
      simp
  simp only [tableBody, columnEntries, indexEntries, foreignKeyEntries, List.forall_mem_append]
  and_intros
  all_goals first | exact hchanged | exact hlisted _ _ _

/-! ## Outlines -/

/-- The entries of the depth, each with those that stand under it. -/
def outline (depth : Nat) : List Entry → List (Entry × List Entry)
  | [] => []
  | entry :: entries =>
      if entry.depth = depth then
        (entry, entries.takeWhile fun under => depth < under.depth) :: outline depth entries
      else
        outline depth entries

theorem outline_append_of_deeper {depth : Nat} {body : List Entry}
    (hbody : ∀ entry ∈ body, depth < entry.depth) (entries : List Entry) :
    outline depth (body ++ entries) = outline depth entries := by
  induction body with
  | nil => rfl
  | cons entry body ih =>
      have hdepth := hbody entry (List.mem_cons_self ..)
      rw [List.cons_append, outline, if_neg (Nat.ne_of_gt hdepth),
        ih fun under hmem => hbody under (List.mem_cons_of_mem _ hmem)]

theorem outline_flatMap {α : Type} {depth : Nat} {header : α → Entry} {body : α → List Entry}
    (hheader : ∀ item, (header item).depth = depth)
    (hbody : ∀ item, ∀ entry ∈ body item, depth < entry.depth) (items : List α) :
    outline depth (items.flatMap fun item => header item :: body item)
      = items.map fun item => (header item, body item) := by
  induction items with
  | nil => rfl
  | cons item items ih =>
      have hstop : (items.flatMap fun item => header item :: body item).takeWhile
          (fun under => decide (depth < under.depth)) = [] := by
        cases items with
        | nil => rfl
        | cons other items => simp [hheader other]
      have hunder : ∀ entry ∈ body item, decide (depth < entry.depth) = true := fun entry hmem =>
        decide_eq_true (hbody item entry hmem)
      rw [List.flatMap_cons, List.cons_append, outline, if_pos (hheader item),
        List.takeWhile_append_of_pos hunder, hstop, List.append_nil,
        outline_append_of_deeper (hbody item), ih]
      rfl

/-- The tables that a report shows as changed, each with what stands under it. -/
def shownTables (entries : List Entry) : List (Entry × List Entry) :=
  outline 1 (entries.dropWhile (· ≠ ⟨0, "Changed tables"⟩))

end Report

/-! ## Reports -/

namespace SchemaDiff

open Report

def entries (diff : SchemaDiff) : List Entry :=
  if diff.isEmpty then
    [⟨0, "No differences"⟩]
  else
    listed 0 "New tables" diff.added (fun table =>
        table.name ++ ": " ++ nameList (table.columns.map Column.name))
      ++ listed 0 "Removed tables" diff.removed Table.name
      ++ if diff.changed.isEmpty then []
        else ⟨0, "Changed tables"⟩ ::
          diff.changed.flatMap fun table => tableHeader table :: tableBody table

theorem report_eq_render (diff : SchemaDiff) : diff.report = render diff.entries := by
  unfold report entries
  split
  next => rfl
  next =>
    rw [render_append, render_append, render_listed, render_listed]
    unfold changedTables
    split
    next => rfl
    next => rw [render_cons, render_flatMap, funext render_tableEntries]

theorem shownTables_entries (diff : SchemaDiff) :
    shownTables diff.entries
      = diff.changed.map fun table => (tableHeader table, tableBody table) := by
  unfold entries
  split
  next hempty =>
    have hnil : diff.changed = [] := by
      simp only [isEmpty, Bool.and_eq_true, List.isEmpty_iff] at hempty
      exact hempty.2
    rw [hnil]
    rfl
  next =>
    have hlisted : ∀ {α : Type} {title : String} (items : List α) (text : α → String),
        title ≠ "Changed tables" → ∀ entry ∈ listed 0 title items text,
          decide (entry ≠ ⟨0, "Changed tables"⟩) = true := by
      intro α title items text htitle entry hmem
      rcases mem_listed hmem with rfl | hdepth
      · simpa using htitle
      · refine decide_eq_true ?_
        rintro rfl
        cases hdepth
    rw [shownTables, List.append_assoc,
      List.dropWhile_append_of_pos (hlisted diff.added _ (by decide)),
      List.dropWhile_append_of_pos (hlisted diff.removed _ (by decide))]
    split
    next hnil =>
      rw [List.isEmpty_iff.mp hnil]
      rfl
    next =>
      rw [List.dropWhile_cons_of_neg (by simp), outline, if_neg Nat.zero_ne_one]
      have hheader : ∀ table, (tableHeader table).depth = 1 := fun _ => rfl
      exact outline_flatMap hheader depth_tableBody diff.changed

end SchemaDiff

/-- How a changed table is shown.  What differs between the versions of a changed column is
all shown; of a renamed column it is so only if a changed column has the same entry. -/
structure Report.Shows (table : TableDiff) (shown : Entry × List Entry) : Prop where
  header : shown.1 = tableHeader table
  changed : ∀ change ∈ table.columns.changed, ∀ property ∈ change.old.differences change.new,
    propertyEntry change property ∈ shown.2
  renamed_iff : ∀ change ∈ table.columns.renamed,
    ∀ property ∈ change.old.differences change.new,
      (propertyEntry change property ∈ shown.2 ↔ ∃ other ∈ table.columns.changed,
        property ∈ other.old.differences other.new ∧
          propertyEntry other property = propertyEntry change property)

theorem Report.mem_tableBody_iff {table : TableDiff} {change : Change Column}
    {property : ColumnProperty} :
    propertyEntry change property ∈ tableBody table ↔ ∃ other ∈ table.columns.changed,
      property ∈ other.old.differences other.new ∧
        propertyEntry other property = propertyEntry change property := by
  have hfilter : propertyEntry change property ∈ tableBody table ↔
      propertyEntry change property ∈ (tableBody table).filter (·.depth = 4) :=
    ⟨fun h => List.mem_filter.mpr ⟨h, rfl⟩, fun h => (List.mem_filter.mp h).1⟩
  rw [hfilter, filter_tableBody, List.mem_flatMap]
  refine exists_congr fun other => and_congr_right fun _ => ?_
  rw [List.mem_map]
  constructor
  · rintro ⟨same, hsame, heq⟩
    obtain rfl := propertyEntry_inj heq
    exact ⟨hsame, heq⟩
  · exact fun ⟨hmem, heq⟩ => ⟨property, hmem, heq⟩

/-- The changed tables are shown one behind the other. -/
theorem SchemaDiff.report_shows (diff : SchemaDiff) :
    diff.report = Report.render diff.entries ∧
      List.Forall₂ Report.Shows diff.changed (Report.shownTables diff.entries) := by
  refine ⟨diff.report_eq_render, ?_⟩
  rw [diff.shownTables_entries, List.forall₂_map_right_iff, List.forall₂_same]
  exact fun table _ => ⟨rfl, fun change hmem property hproperty =>
    Report.mem_tableBody_iff.mpr ⟨change, hmem, hproperty, rfl⟩,
    fun _ _ _ _ => Report.mem_tableBody_iff⟩

/-- A column gets a new name and loses its nulls. -/
def SchemaDiff.renamedColumn : SchemaDiff :=
  { changed := [{
      name := "t"
      columns.renamed := [⟨{ name := "a", kind := .integer, typeName := "integer" },
        { name := "b", kind := .integer, typeName := "integer", nullable := false }⟩] }] }

/-- The report has the names of the column, and nothing of the nulls. -/
theorem SchemaDiff.report_hides_nullable :
    (do
      let old ← BuildSettings.build {} "CREATE TABLE t (a INT)"
      let new ← BuildSettings.build {} "CREATE TABLE t (b INT NOT NULL)"
      return old.schema.diff new.schema : Except BuildError SchemaDiff) = .ok renamedColumn ∧
      (∃ table ∈ renamedColumn.changed, ∃ change ∈ table.columns.renamed,
        change.old.differences change.new = [.nullable] ∧
          Report.propertyEntry change .nullable ∉ renamedColumn.entries) ∧
      renamedColumn.report = "Changed tables\n  t\n    Renamed columns\n      * a => b\n" := by
  rw [BuildSettings.build_of_toList _ String.toList_ofList,
    BuildSettings.build_of_toList _ String.toList_ofList, TypeMapping.mysql_eq]
  decide +kernel

end SchemaDelta
