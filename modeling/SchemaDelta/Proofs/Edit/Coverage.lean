import SchemaDelta.Dialect
import SchemaDelta.Proofs.Diff.Origin
import SchemaDelta.Report

/-!
# Differences, statements and reports

What each part of a difference asks for is said part by part.  A migration makes exactly
the edits that are asked for, so no part is passed over, and the difference, its
statements and its report agree on whether there is anything to do.
-/

namespace SchemaDelta

/-! ## What a difference asks for -/

/-- Items that have to go: they are removed, or come back in another form. -/
inductive Delta.Drops {α : Type} (delta : Delta α) : α → Prop
  | removed {item : α} (h : item ∈ delta.removed) : delta.Drops item
  | changed {change : Change α} (h : change ∈ delta.changed) : delta.Drops change.old
  | renamed {change : Change α} (h : change ∈ delta.renamed) : delta.Drops change.old

/-- Items that have to come: they are added, or there already in another form. -/
inductive Delta.Creates {α : Type} (delta : Delta α) : α → Prop
  | added {item : α} (h : item ∈ delta.added) : delta.Creates item
  | changed {change : Change α} (h : change ∈ delta.changed) : delta.Creates change.new
  | renamed {change : Change α} (h : change ∈ delta.renamed) : delta.Creates change.new

/-- The edits of the columns and indexes of a table that a difference asks for. -/
inductive TableDiff.Demands (diff : TableDiff) : TableEdit → Prop
  | addColumn {column : Column} (h : column ∈ diff.columns.added) :
      diff.Demands (.addColumn column)
  | changeColumn {change : Change Column} (h : change ∈ diff.columns.changed) :
      diff.Demands (.changeColumn change)
  | renameColumn {change : Change Column} (h : change ∈ diff.columns.renamed) :
      diff.Demands (.changeColumn change)
  | dropColumn {column : Column} (h : column ∈ diff.columns.removed) :
      diff.Demands (.dropColumn column.name)
  | addIndex {index : Index} (h : index ∈ diff.indexes.added) :
      diff.Demands (.addIndex index)
  | dropChangedIndex {change : Change Index} (h : change ∈ diff.indexes.changed) :
      diff.Demands (.dropIndex change.old)
  | addChangedIndex {change : Change Index} (h : change ∈ diff.indexes.changed) :
      diff.Demands (.addIndex change.new)
  | renameIndex {change : Change Index} (h : change ∈ diff.indexes.renamed) :
      diff.Demands (.renameIndex change.old.name change.new.name)
  | dropIndex {index : Index} (h : index ∈ diff.indexes.removed) :
      diff.Demands (.dropIndex index)

/-- The edits of a schema that a difference asks for.  A table that goes lets go of its
foreign keys first. -/
inductive SchemaDiff.Demands (diff : SchemaDiff) : SchemaEdit → Prop
  | createTable {table : Table} (h : table ∈ diff.added) : diff.Demands (.createTable table)
  | dropTable {table : Table} (h : table ∈ diff.removed) : diff.Demands (.dropTable table.name)
  | releaseTable {table : Table} {foreignKey : ForeignKey} (h : table ∈ diff.removed)
      (hkey : foreignKey ∈ table.foreignKeys) :
      diff.Demands (.alterTable table.name (.dropForeignKey foreignKey.name))
  | renameTable {table : TableDiff} {newName : String} (h : table ∈ diff.changed)
      (hname : table.newName = some newName) : diff.Demands (.renameTable table.name newName)
  | alterTable {table : TableDiff} {edit : TableEdit} (h : table ∈ diff.changed)
      (hedit : table.Demands edit) : diff.Demands (.alterTable table.targetName edit)
  | dropForeignKey {table : TableDiff} {foreignKey : ForeignKey} (h : table ∈ diff.changed)
      (hkey : table.foreignKeys.Drops foreignKey) :
      diff.Demands (.alterTable table.name (.dropForeignKey foreignKey.name))
  | addForeignKey {table : TableDiff} {foreignKey : ForeignKey} (h : table ∈ diff.changed)
      (hkey : table.foreignKeys.Creates foreignKey) :
      diff.Demands (.alterTable table.targetName (.addForeignKey foreignKey))

/-! ## Migrations make what is asked for -/

namespace Delta

variable {α : Type} {delta : Delta α} {item : α}

theorem mem_dropped_iff : item ∈ delta.dropped ↔ delta.Drops item := by
  simp only [dropped, List.mem_append, List.mem_map]
  constructor
  · rintro ((h | ⟨change, h, rfl⟩) | ⟨change, h, rfl⟩)
    · exact .removed h
    · exact .changed h
    · exact .renamed h
  · intro h
    cases h with
    | removed h => exact .inl (.inl h)
    | changed h => exact .inl (.inr ⟨_, h, rfl⟩)
    | renamed h => exact .inr ⟨_, h, rfl⟩

theorem mem_created_iff : item ∈ delta.created ↔ delta.Creates item := by
  simp only [created, List.mem_append, List.mem_map]
  constructor
  · rintro ((h | ⟨change, h, rfl⟩) | ⟨change, h, rfl⟩)
    · exact .added h
    · exact .changed h
    · exact .renamed h
  · intro h
    cases h with
    | added h => exact .inl (.inl h)
    | changed h => exact .inl (.inr ⟨_, h, rfl⟩)
    | renamed h => exact .inr ⟨_, h, rfl⟩

theorem exists_of_isEmpty_eq_false (h : delta.isEmpty = false) :
    (∃ item, item ∈ delta.added) ∨ (∃ item, item ∈ delta.removed) ∨
      (∃ change, change ∈ delta.changed) ∨ ∃ change, change ∈ delta.renamed := by
  simp only [isEmpty, Bool.and_eq_false_iff, List.isEmpty_eq_false_iff_exists_mem] at h
  tauto

end Delta

theorem TableDiff.mem_alterations_iff {diff : TableDiff} {edit : TableEdit} :
    edit ∈ diff.alterations ↔ diff.Demands edit := by
  simp only [alterations, List.mem_append, List.mem_map]
  constructor
  · rintro (((((⟨index, h | ⟨change, h, rfl⟩, rfl⟩ | ⟨column, h, rfl⟩) |
      ⟨change, h | h, rfl⟩) | ⟨column, h, rfl⟩) | ⟨index, h | ⟨change, h, rfl⟩, rfl⟩) |
      ⟨change, h, rfl⟩)
    · exact .dropIndex h
    · exact .dropChangedIndex h
    · exact .addColumn h
    · exact .changeColumn h
    · exact .renameColumn h
    · exact .dropColumn h
    · exact .addIndex h
    · exact .addChangedIndex h
    · exact .renameIndex h
  · intro h
    cases h with
    | dropIndex h => exact .inl (.inl (.inl (.inl (.inl ⟨_, .inl h, rfl⟩))))
    | dropChangedIndex h => exact .inl (.inl (.inl (.inl (.inl ⟨_, .inr ⟨_, h, rfl⟩, rfl⟩))))
    | addColumn h => exact .inl (.inl (.inl (.inl (.inr ⟨_, h, rfl⟩))))
    | changeColumn h => exact .inl (.inl (.inl (.inr ⟨_, .inl h, rfl⟩)))
    | renameColumn h => exact .inl (.inl (.inl (.inr ⟨_, .inr h, rfl⟩)))
    | dropColumn h => exact .inl (.inl (.inr ⟨_, h, rfl⟩))
    | addIndex h => exact .inl (.inr ⟨_, .inl h, rfl⟩)
    | addChangedIndex h => exact .inl (.inr ⟨_, .inr ⟨_, h, rfl⟩, rfl⟩)
    | renameIndex h => exact .inr ⟨_, h, rfl⟩

namespace SchemaDiff

variable {diff : SchemaDiff}

/-- A migration consists of the edits that the difference asks for. -/
theorem mem_migration_iff {edit : SchemaEdit} : edit ∈ diff.migration ↔ diff.Demands edit := by
  simp only [migration, TableDiff.nameChange, List.mem_append, List.mem_flatMap, List.mem_map,
    Option.mem_toList, Delta.mem_dropped_iff, Delta.mem_created_iff,
    TableDiff.mem_alterations_iff]
  constructor
  · rintro (((((⟨table, h, key, hkey, rfl⟩ | ⟨table, h, key, hkey, rfl⟩) | ⟨table, h, rfl⟩) |
      ⟨table, h, rfl⟩) | ⟨table, h, ⟨newName, hname, rfl⟩ | ⟨edit, hedit, rfl⟩⟩) |
      ⟨table, h, key, hkey, rfl⟩)
    · exact .releaseTable h hkey
    · exact .dropForeignKey h hkey
    · exact .dropTable h
    · exact .createTable h
    · exact .renameTable h hname
    · exact .alterTable h hedit
    · exact .addForeignKey h hkey
  · intro h
    cases h with
    | releaseTable h hkey => exact .inl (.inl (.inl (.inl (.inl ⟨_, h, _, hkey, rfl⟩))))
    | dropForeignKey h hkey => exact .inl (.inl (.inl (.inl (.inr ⟨_, h, _, hkey, rfl⟩))))
    | dropTable h => exact .inl (.inl (.inl (.inr ⟨_, h, rfl⟩)))
    | createTable h => exact .inl (.inl (.inr ⟨_, h, rfl⟩))
    | renameTable h hname => exact .inl (.inr ⟨_, h, .inl ⟨_, hname, rfl⟩⟩)
    | alterTable h hedit => exact .inl (.inr ⟨_, h, .inr ⟨_, hedit, rfl⟩⟩)
    | addForeignKey h hkey => exact .inr ⟨_, h, _, hkey, rfl⟩

theorem isEmpty_eq_false_iff : diff.isEmpty = false ↔
    (∃ table, table ∈ diff.added) ∨ (∃ table, table ∈ diff.removed) ∨
      ∃ table, table ∈ diff.changed := by
  simp only [isEmpty, Bool.and_eq_false_iff, List.isEmpty_eq_false_iff_exists_mem, or_assoc]

theorem Demands.isEmpty_eq_false {edit : SchemaEdit} (h : diff.Demands edit) :
    diff.isEmpty = false := by
  apply isEmpty_eq_false_iff.mpr
  cases h with
  | createTable h => exact .inl ⟨_, h⟩
  | dropTable h | releaseTable h => exact .inr (.inl ⟨_, h⟩)
  | renameTable h | alterTable h | dropForeignKey h | addForeignKey h =>
      exact .inr (.inr ⟨_, h⟩)

/-- A changed table that differs in anything asks for something. -/
theorem exists_demanded_of_changed {table : TableDiff} (h : table ∈ diff.changed)
    (hdiffers : table.isEmpty = false) : ∃ edit, diff.Demands edit := by
  cases hname : table.newName with
  | some newName => exact ⟨_, .renameTable h hname⟩
  | none =>
      have hparts : table.columns.isEmpty = false ∨ table.indexes.isEmpty = false ∨
          table.foreignKeys.isEmpty = false := by
        simp only [TableDiff.isEmpty, hname, Option.isNone_none, Bool.true_and,
          Bool.and_eq_false_iff] at hdiffers
        tauto
      rcases hparts with hcolumns | hindexes | hkeys
      · obtain ⟨_, hmem⟩ | ⟨_, hmem⟩ | ⟨_, hmem⟩ | ⟨_, hmem⟩ :=
          Delta.exists_of_isEmpty_eq_false hcolumns
        · exact ⟨_, .alterTable h (.addColumn hmem)⟩
        · exact ⟨_, .alterTable h (.dropColumn hmem)⟩
        · exact ⟨_, .alterTable h (.changeColumn hmem)⟩
        · exact ⟨_, .alterTable h (.renameColumn hmem)⟩
      · obtain ⟨_, hmem⟩ | ⟨_, hmem⟩ | ⟨_, hmem⟩ | ⟨_, hmem⟩ :=
          Delta.exists_of_isEmpty_eq_false hindexes
        · exact ⟨_, .alterTable h (.addIndex hmem)⟩
        · exact ⟨_, .alterTable h (.dropIndex hmem)⟩
        · exact ⟨_, .alterTable h (.dropChangedIndex hmem)⟩
        · exact ⟨_, .alterTable h (.renameIndex hmem)⟩
      · obtain ⟨_, hmem⟩ | ⟨_, hmem⟩ | ⟨_, hmem⟩ | ⟨_, hmem⟩ :=
          Delta.exists_of_isEmpty_eq_false hkeys
        · exact ⟨_, .addForeignKey h (.added hmem)⟩
        · exact ⟨_, .dropForeignKey h (.removed hmem)⟩
        · exact ⟨_, .dropForeignKey h (.changed hmem)⟩
        · exact ⟨_, .dropForeignKey h (.renamed hmem)⟩

theorem exists_demanded (hchanged : ∀ table ∈ diff.changed, table.isEmpty = false)
    (h : diff.isEmpty = false) : ∃ edit, diff.Demands edit := by
  obtain ⟨table, hmem⟩ | ⟨table, hmem⟩ | ⟨table, hmem⟩ := isEmpty_eq_false_iff.mp h
  · exact ⟨_, .createTable hmem⟩
  · exact ⟨_, .dropTable hmem⟩
  · exact exists_demanded_of_changed hmem (hchanged table hmem)

end SchemaDiff

/-! ## Reports -/

namespace Report

theorem toList_line_zero (text : String) : (line 0 text).toList = text.toList ++ ['\n'] := by
  simp [line]

theorem toList_listing_of_ne_nil {α : Type} {items : List α} (h : items ≠ []) (title : String)
    (entry : α → String) : title.toList <+: (listing 0 title items entry).toList := by
  have hnonempty : items.isEmpty = false := List.isEmpty_eq_false_iff.mpr h
  rw [listing, hnonempty, if_neg Bool.false_ne_true, String.toList_append, toList_line_zero,
    List.append_assoc]
  exact List.prefix_append _ _

end Report

/-- A report begins with the title of its first section. -/
theorem SchemaDiff.exists_title {diff : SchemaDiff} (h : diff.isEmpty = false) :
    ∃ title ∈ ["New tables", "Removed tables", "Changed tables"],
      title.toList <+: diff.report.toList := by
  rw [report, h, if_neg Bool.false_ne_true, String.toList_append, String.toList_append]
  by_cases hadded : diff.added = []
  · by_cases hremoved : diff.removed = []
    · have hchanged : diff.changed.isEmpty = false := by
        simpa [isEmpty, hadded, hremoved] using h
      rw [hadded, hremoved, Report.changedTables, hchanged, if_neg Bool.false_ne_true,
        String.toList_append, Report.toList_line_zero, List.append_assoc]
      exact ⟨"Changed tables", by simp, List.prefix_append _ _⟩
    · rw [hadded]
      have hprefix := Report.toList_listing_of_ne_nil hremoved "Removed tables" Table.name
      exact ⟨"Removed tables", by simp, hprefix.trans (List.prefix_append _ _)⟩
  · have hprefix := Report.toList_listing_of_ne_nil hadded "New tables" fun table =>
      table.name ++ ": " ++ Report.nameList (table.columns.map Column.name)
    rw [List.append_assoc]
    exact ⟨"New tables", by simp, hprefix.trans (List.prefix_append _ _)⟩

theorem SchemaDiff.report_eq_iff {diff : SchemaDiff} :
    diff.report = "No differences\n" ↔ diff.isEmpty = true := by
  constructor
  · intro hreport
    by_contra hdiffers
    obtain ⟨title, htitle, hprefix⟩ := exists_title (Bool.eq_false_iff.mpr hdiffers)
    rw [hreport] at hprefix
    simp only [List.mem_cons, List.not_mem_nil, or_false] at htitle
    rcases htitle with rfl | rfl | rfl <;> revert hprefix <;> decide
  · intro hempty
    rw [report, if_pos hempty]
    rfl

/-- A difference of two schemas, its statements in any dialect and its report agree on whether
anything differs, and each part of the difference has its statement. -/
theorem Schema.diff_outputs_agree (dialect : Dialect) (old new : Schema) :
    ((old.diff new).isEmpty = false ↔ dialect.statements (old.diff new) ≠ []) ∧
    ((old.diff new).isEmpty = false ↔ (old.diff new).report ≠ "No differences\n") ∧
    ∀ edit, (old.diff new).Demands edit →
      dialect.statement edit ∈ dialect.statements (old.diff new) := by
  have hdemanded : ∀ edit, (old.diff new).Demands edit →
      dialect.statement edit ∈ dialect.statements (old.diff new) := by
    intro edit hedit
    exact List.mem_map_of_mem (SchemaDiff.mem_migration_iff.mpr hedit)
  refine ⟨⟨fun hdiffers => ?_, fun hstatements => ?_⟩, ?_, hdemanded⟩
  · have hchanged : ∀ table ∈ (old.diff new).changed, table.isEmpty = false := by
      intro table htable
      obtain ⟨-, -, -, -, -, htable⟩ := exists_of_mem_changed htable
      exact htable
    obtain ⟨edit, hedit⟩ := SchemaDiff.exists_demanded hchanged hdiffers
    exact List.ne_nil_of_mem (hdemanded edit hedit)
  · obtain ⟨statement, hmem⟩ := List.exists_mem_of_ne_nil _ hstatements
    obtain ⟨edit, hedit, -⟩ := List.mem_map.mp hmem
    exact (SchemaDiff.mem_migration_iff.mp hedit).isEmpty_eq_false
  · rw [Ne, SchemaDiff.report_eq_iff, Bool.not_eq_true]

end SchemaDelta
