import SchemaDelta.Proofs.Edit.Table

/-!
# Carrying out the difference between two tables

The foreign keys in the way are dropped first and the missing ones are added
last.  In between, the indexes that lose their columns go away before the
columns change, and indexes are added and renamed when all columns are there.
This much is common to all orders in which a difference is carried out; in what
order the columns change does not matter.
-/

namespace SchemaDelta.Table

open Named

variable {old new table : Table}

theorem Supports.of_agree {index : Index} (h : new.Supports index)
    (hagree : Agree Column.Same (lookup table.columns) (lookup new.columns)) :
    table.Supports index := by
  intro name hname
  obtain ⟨column, hcolumn, hnullable⟩ := h name hname
  obtain ⟨other, hother, hsame⟩ := hagree.exists_of_eq_some_right hcolumn
  exact ⟨other, hother, fun hprimary => hsame.nullable.trans (hnullable hprimary)⟩

theorem Declares.of_agree {names : List String} (h : new.Declares names)
    (hagree : Agree Column.Same (lookup table.columns) (lookup new.columns)) :
    table.Declares names := fun name hname =>
  (hagree.ne_none_iff _).mpr (h name hname)

theorem Declares.of_sameNames {names others : List String} (h : new.Declares names)
    (hnames : others.map lowerCase = names.map lowerCase) : new.Declares others := by
  intro name hname
  obtain ⟨declared, hdeclared, hsame⟩ :=
    List.mem_map.mp (hnames ▸ List.mem_map_of_mem (f := lowerCase) hname)
  exact hsame ▸ h declared hdeclared

variable (hold : old.WellFormed) (hnew : new.WellFormed) (hcoherent : table.Coherent)

/-! ## Foreign keys -/

section ForeignKeys

/-- The foreign keys of the old table that stay while the others are away. -/
def keptForeignKeys (old new : Table) : String → Option ForeignKey :=
  without (lookup old.foreignKeys) (foreignKeyDelta old new).dropped

theorem foreignKeys_dropped_eq (old new : Table) :
    (foreignKeyDelta old new).dropped =
      (foreignKeyDelta old new).removed ++
        ((foreignKeyDelta old new).changed ++ (foreignKeyDelta old new).renamed).map (·.old) := by
  simp [Delta.dropped]

theorem foreignKeys_created_eq (old new : Table) :
    (foreignKeyDelta old new).created =
      (foreignKeyDelta old new).added ++
        ((foreignKeyDelta old new).changed ++ (foreignKeyDelta old new).renamed).map (·.new) := by
  simp [Delta.created]

include hold hnew

theorem foreignKeys_drop_account :
    Account ForeignKey.Same (lookup old.foreignKeys) (keptForeignKeys old new)
      (foreignKeyDelta old new).dropped [] [] := by
  have haccount := foreignKeyDelta_account hold.toCoherent hnew.toCoherent
  rw [← List.append_nil (_ ++ _)] at haccount
  rw [keptForeignKeys, foreignKeys_dropped_eq]
  exact haccount.drop .refl

theorem foreignKeys_create_account :
    Account ForeignKey.Same (keptForeignKeys old new) (lookup new.foreignKeys) [] []
      (foreignKeyDelta old new).created := by
  have haccount := foreignKeyDelta_account hold.toCoherent hnew.toCoherent
  rw [← List.append_nil (_ ++ _)] at haccount
  rw [keptForeignKeys, foreignKeys_dropped_eq, foreignKeys_created_eq]
  exact haccount.restore

/-- The columns of the foreign keys that stay are columns of the new table. -/
theorem declares_of_agree_keptForeignKeys {foreignKeys : List ForeignKey}
    (hdistinct : Distinct foreignKeys)
    (hagree : Agree ForeignKey.Same (lookup foreignKeys) (keptForeignKeys old new)) :
    ∀ foreignKey ∈ foreignKeys, new.Declares foreignKey.columns := by
  intro foreignKey hmem
  obtain ⟨kept, hkept, hsame⟩ := hagree.exists_of_eq_some (lookup_key hdistinct hmem)
  obtain ⟨_, hchange, _⟩ | ⟨other, hother, hsame'⟩ :=
    (foreignKeys_create_account hold hnew).survives hkept
  · cases hchange
  · have hdeclares : new.Declares other.columns := fun name hname =>
      hnew.spelled.declares name
        (mem_keyColumns.mpr (.inr ⟨other, (mem_of_lookup hother).1, hname⟩))
    exact hdeclares.of_sameNames (ForeignKey.Same.iff_fields.mp (hsame.trans hsame')).1

include hcoherent

theorem reaches_dropped_foreignKeys
    (hagree : Agree ForeignKey.Same (lookup table.foreignKeys) (lookup old.foreignKeys)) :
    ∃ foreignKeys,
      table.Reaches ((foreignKeyDelta old new).dropped.map (.dropForeignKey ·.name))
          { table with foreignKeys } ∧
        Coherent { table with foreignKeys } ∧
        Agree ForeignKey.Same (lookup foreignKeys) (keptForeignKeys old new) := by
  exact reaches_foreignKeys hcoherent (foreignKeys_drop_account hold hnew) hagree
    (.of_eq (Account.moves_drop _)) (realises_map fun foreignKey _ => .drop foreignKey)

theorem reaches_created_foreignKeys
    (hcolumns : Agree Column.Same (lookup table.columns) (lookup new.columns))
    (hagree : Agree ForeignKey.Same (lookup table.foreignKeys) (keptForeignKeys old new)) :
    ∃ foreignKeys,
      table.Reaches ((foreignKeyDelta old new).created.map .addForeignKey)
          { table with foreignKeys } ∧
        Coherent { table with foreignKeys } ∧
        Agree ForeignKey.Same (lookup foreignKeys) (lookup new.foreignKeys) := by
  have haccount := foreignKeys_create_account hold hnew
  refine reaches_foreignKeys hcoherent haccount hagree
    (.of_eq (Account.moves_restore [] _)) (realises_map fun foreignKey hmem => ?_)
  have hnewMem := (mem_of_lookup (haccount.added_fits foreignKey hmem).2).1
  refine .add foreignKey (hnew.arity foreignKey hnewMem) (Declares.of_agree ?_ hcolumns)
  exact fun name hname => hnew.spelled.declares name
    (mem_keyColumns.mpr (.inr ⟨foreignKey, hnewMem, hname⟩))

end ForeignKeys

/-! ## Indexes and columns -/

/-- The indexes of the old table that stay while the others are away. -/
def keptIndexes (old new : Table) (dropped : List (Change Index)) : String → Option Index :=
  without (lookup old.allIndexes) ((indexDelta old new).removed ++ dropped.map (·.old))

section Middle

variable {dropped replaced : List (Change Index)}
  (hsplit : (indexDelta old new).changed ++ (indexDelta old new).renamed = dropped ++ replaced)
  (hmates : ∀ change ∈ replaced, indexesMate change.old change.new = true)

include hold hnew hsplit

theorem indexes_account :
    Account Index.Same (lookup old.allIndexes) (lookup new.allIndexes)
      (indexDelta old new).removed (dropped ++ replaced) (indexDelta old new).added :=
  hsplit ▸ indexDelta_account hold.toCoherent hnew.toCoherent

include hmates

/-- The columns of the indexes that stay are columns of the new table. -/
theorem declares_of_agree_keptIndexes (hcoherent : table.Coherent)
    (hagree : Agree Index.Same (lookup table.allIndexes) (keptIndexes old new dropped)) :
    ∀ index ∈ table.allIndexes, new.Declares index.columns := by
  intro index hmem
  have hrestore := (indexes_account hold hnew hsplit).restore
  obtain ⟨kept, hkept, hsame⟩ :=
    hagree.exists_of_eq_some (lookup_key hcoherent.allIndexes_distinct hmem)
  obtain ⟨other, hother, hsame'⟩ : ∃ other ∈ new.allIndexes, Index.Same kept other := by
    obtain ⟨change, hchange, rfl⟩ | ⟨other, hother, hsame'⟩ := hrestore.survives hkept
    · have hchangeMates := hmates change hchange
      simp only [indexesMate, Bool.and_eq_true] at hchangeMates
      exact ⟨change.new, (mem_of_lookup (hrestore.replaced_fits change hchange).2.1).1,
        hchangeMates.2⟩
    · exact ⟨other, (mem_of_lookup hother).1, hsame'⟩
  exact (hnew.declares hother).of_sameNames
    (Index.Same.iff_kind_columns.mp (hsame.trans hsame')).2

include hcoherent

/-- Indexes can go away or be renamed, as long as those whose columns change go
away.  The columns change in any order. -/
theorem reaches_indexes_columns
    (hcolumns : Agree Column.Same (lookup table.columns) (lookup old.columns))
    (hindexes : Agree Index.Same (lookup table.allIndexes) (lookup old.allIndexes))
    (hforeignKeys : ∀ foreignKey ∈ table.foreignKeys, new.Declares foreignKey.columns)
    {columnEdits : List TableEdit} {moves : List (Move Column)}
    (hperm : (Account.moves (columnDelta old new).removed
      ((columnDelta old new).changed ++ (columnDelta old new).renamed)
      (columnDelta old new).added).Perm moves)
    (hmoves : List.Forall₂ MovesColumn columnEdits moves) :
    ∃ columns primaryKey indexes,
      table.Reaches
          (((indexDelta old new).removed ++ dropped.map (·.old)).map .dropIndex ++ columnEdits
            ++ ((indexDelta old new).added ++ dropped.map (·.new)).map .addIndex
            ++ replaced.map fun change => .renameIndex change.old.name change.new.name)
          { table with columns, primaryKey, indexes } ∧
        Coherent { table with columns, primaryKey, indexes } ∧
        Agree Column.Same (lookup columns) (lookup new.columns) ∧
        Agree Index.Same
          (lookup ({ table with columns, primaryKey, indexes } : Table).allIndexes)
          (lookup new.allIndexes) := by
  have haccount := indexes_account hold hnew hsplit
  have hrestore := haccount.restore
  have hdropped : List.Forall₂ (MovesIndex table (lookup old.allIndexes))
      (((indexDelta old new).removed ++ dropped.map (·.old)).map .dropIndex) _ :=
    realises_map fun index _ => .drop index
  obtain ⟨primaryKey, indexes, hdrop, hcoherent₁, hindexes₁⟩ :=
    reaches_indexes hcoherent (haccount.drop .refl) hindexes (.of_eq (Account.moves_drop _))
      hdropped
  have hused : ∀ used ∈ keyColumns { table with primaryKey, indexes },
      lookup new.columns (lowerCase used) ≠ none := by
    intro used hmem
    rcases mem_keyColumns.mp hmem with ⟨index, hindex, hname⟩ | ⟨foreignKey, hkey, hname⟩
    · exact declares_of_agree_keptIndexes hold hnew hsplit hmates hcoherent₁ hindexes₁ index hindex
        used hname
    · exact hforeignKeys foreignKey hkey used hname
  obtain ⟨columns, hchange, hcoherent₂, hcolumns₂⟩ :=
    reaches_columns hcoherent₁ (columnDelta_account hold.toCoherent hnew.toCoherent) hcolumns
      hused hperm hmoves
  have hsupports : ∀ index ∈ new.allIndexes,
      Supports { table with columns, primaryKey, indexes } index := fun index hindex =>
    (hnew.supports hindex).of_agree hcolumns₂
  have hadded : List.Forall₂ (MovesIndex { table with columns, primaryKey, indexes }
      (keptIndexes old new dropped))
      (((indexDelta old new).added ++ dropped.map (·.new)).map .addIndex) _ :=
    realises_map fun index hmem => by
      have hindex := (mem_of_lookup (hrestore.added_fits index hmem).2).1
      exact .add index (hnew.wellNamed hindex) (hsupports index hindex)
  have hrenamed : List.Forall₂ (MovesIndex { table with columns, primaryKey, indexes }
      (keptIndexes old new dropped))
      (replaced.map fun change => .renameIndex change.old.name change.new.name) _ :=
    realises_map fun change hmem => by
      obtain ⟨hsource, htarget, _⟩ := hrestore.replaced_fits change hmem
      have hindex := (mem_of_lookup htarget).1
      exact .rename change (hmates change hmem) hsource (hnew.wellNamed hindex)
        (hsupports change.new hindex)
  obtain ⟨primaryKey', indexes', hadd, hcoherent₃, hindexes₃⟩ :=
    reaches_indexes hcoherent₂ hrestore hindexes₁
      ((List.Perm.of_eq (Account.moves_restore _ _)).trans List.perm_append_comm)
      (List.rel_append hadded hrenamed)
  refine ⟨columns, primaryKey', indexes', ?_, hcoherent₃, hcolumns₂, hindexes₃⟩
  rw [List.append_assoc]
  exact (hdrop.append hchange).append hadd

end Middle

/-! ## The two orders -/

section Orders

theorem key_targetName (hname : key table = key old) :
    lowerCase ((old.diff new).newName.getD table.name) = key new := by
  by_cases h : sameName old.name new.name = true
  · rw [diff, if_pos h, Option.getD_none]
    exact hname.trans (sameName_iff.mp h)
  · rw [diff, if_neg h, Option.getD_some]
    rfl

theorem movesColumn_dropped (columns : List Column) :
    List.Forall₂ MovesColumn (columns.map (.dropColumn ·.name))
      (columns.map fun column => .drop (key column)) :=
  realises_map fun column _ => .drop column

include hold hnew

theorem movesColumn_changed :
    List.Forall₂ MovesColumn
      (((columnDelta old new).changed ++ (columnDelta old new).renamed).map .changeColumn)
      (((columnDelta old new).changed ++ (columnDelta old new).renamed).map
        fun change => .replace (key change.old) change.new) :=
  realises_map fun change hmem => by
    have haccount := columnDelta_account hold.toCoherent hnew.toCoherent
    have htarget := (haccount.replaced_fits change hmem).2.1
    exact .replace change (hnew.admissible _ (mem_of_lookup htarget).1)

theorem movesColumn_added :
    List.Forall₂ MovesColumn ((columnDelta old new).added.map .addColumn)
      ((columnDelta old new).added.map .add) :=
  realises_map fun column hmem => by
    have haccount := columnDelta_account hold.toCoherent hnew.toCoherent
    have htarget := (haccount.added_fits column hmem).2
    exact .add column (hnew.admissible _ (mem_of_lookup htarget).1)

include hcoherent

/-- A migration adds columns before it drops others, and renames indexes. -/
theorem reaches_alterations
    (hcolumns : Agree Column.Same (lookup table.columns) (lookup old.columns))
    (hindexes : Agree Index.Same (lookup table.allIndexes) (lookup old.allIndexes))
    (hforeignKeys : ∀ foreignKey ∈ table.foreignKeys, new.Declares foreignKey.columns) :
    ∃ columns primaryKey indexes,
      table.Reaches (old.diff new).alterations { table with columns, primaryKey, indexes } ∧
        Coherent { table with columns, primaryKey, indexes } ∧
        Agree Column.Same (lookup columns) (lookup new.columns) ∧
        Agree Index.Same
          (lookup ({ table with columns, primaryKey, indexes } : Table).allIndexes)
          (lookup new.allIndexes) := by
  have hmoves := List.rel_append (List.rel_append (movesColumn_added hold hnew)
    (movesColumn_changed hold hnew)) (movesColumn_dropped (columnDelta old new).removed)
  have hperm : (Account.moves (columnDelta old new).removed
      ((columnDelta old new).changed ++ (columnDelta old new).renamed)
      (columnDelta old new).added).Perm _ :=
    (List.perm_append_comm.trans (List.perm_append_comm.append_left _)).trans
      (.of_eq (List.append_assoc _ _ _).symm)
  have hreaches := reaches_indexes_columns hold hnew hcoherent rfl
    (fun change hchange => Delta.mates_of_mem_renamed hchange) hcolumns hindexes hforeignKeys
    hperm hmoves
  simpa only [TableDiff.alterations, diff, List.append_assoc] using hreaches

/-- Applying a difference takes everything away that changes before anything is
added. -/
theorem reaches_edits (hmatches : table.Matches old) :
    ∃ edited, table.Reaches (old.diff new).edits edited ∧ edited.name = table.name ∧
      edited.Coherent ∧
      Agree Column.Same (lookup edited.columns) (lookup new.columns) ∧
      Agree Index.Same (lookup edited.allIndexes) (lookup new.allIndexes) ∧
      Agree ForeignKey.Same (lookup edited.foreignKeys) (lookup new.foreignKeys) := by
  have hmoves := List.rel_append (List.rel_append
    (movesColumn_dropped (columnDelta old new).removed) (movesColumn_changed hold hnew))
    (movesColumn_added hold hnew)
  obtain ⟨keptKeys, hdrop, hcoherent₁, hkept⟩ :=
    reaches_dropped_foreignKeys hold hnew hcoherent hmatches.foreignKeys
  obtain ⟨columns, primaryKey, indexes, hmiddle, hcoherent₂, hcolumns, hindexes⟩ :=
    reaches_indexes_columns hold hnew hcoherent₁ (List.append_nil _).symm
      (by simp) hmatches.columns hmatches.indexes
      (declares_of_agree_keptForeignKeys hold hnew hcoherent₁.foreignKeys.distinct hkept)
      .rfl hmoves
  obtain ⟨foreignKeys, hcreate, hcoherent₃, hforeignKeys⟩ :=
    reaches_created_foreignKeys hold hnew hcoherent₂ hcolumns hkept
  refine ⟨{ table with columns, primaryKey, indexes, foreignKeys }, ?_, rfl, hcoherent₃,
    hcolumns, hindexes, hforeignKeys⟩
  simpa only [TableDiff.edits, diff, Delta.dropped, Delta.created, List.map_append,
    List.map_nil, List.append_nil, List.append_assoc] using (hdrop.append hmiddle).append hcreate

/-- A difference applies to every table that matches the old side, and leads to
one that matches the new side. -/
theorem applyTo_eq (hmatches : table.Matches old) :
    ∃ edited, (old.diff new).applyTo table = (edited, none) ∧ edited.Coherent ∧
      edited.Matches new := by
  obtain ⟨edited, hreaches, hname, hedited, hcolumns, hindexes, hforeignKeys⟩ :=
    reaches_edits hold hnew hcoherent hmatches
  refine ⟨{ edited with name := (old.diff new).newName.getD edited.name }, ?_, ?_, ?_⟩
  · unfold TableDiff.applyTo
    rw [show table.editAll (old.diff new).edits = (edited, none) from hreaches]
  · exact ⟨hedited.columns, hedited.primary, hedited.secondary, hedited.indexes,
      hedited.foreignKeys⟩
  · refine ⟨?_, hcolumns, hindexes, hforeignKeys⟩
    rw [hname]
    exact key_targetName hmatches.name

end Orders

end SchemaDelta.Table
