import SchemaDelta.Proofs.Schema.Built

/-!
# What all operations on tables keep

Tables that only ever grow are well formed.  Tables that are also changed and
cut back keep less: a column may be replaced by one that spells its name in
another way, so that the keys name their columns up to case only, and that is
NULL although the primary key wants it otherwise.  What is left is that a table
is valid.
-/

namespace SchemaDelta

open Named

/-- What is more than coherent of a table that any operations have led to:
enumerations have values, the columns of the keys exist, and foreign keys have
as many columns as they refer to. -/
structure Table.Valid (table : Table) : Prop extends table.Coherent where
  admissible : ∀ column ∈ table.columns, Table.Admissible column
  declared : table.Declares table.keyColumns
  arity : ∀ foreignKey ∈ table.foreignKeys,
    foreignKey.columns.length = foreignKey.referencedColumns.length

namespace Table

variable {table edited : Table}

theorem WellFormed.valid (h : table.WellFormed) : table.Valid :=
  ⟨h.toCoherent, h.admissible, h.spelled.declares, h.arity⟩

/-! ## Names of columns that exist -/

theorem declares_iff {names : List String} :
    table.Declares names ↔ ∀ name ∈ names, ∃ column ∈ table.columns, key column = lowerCase name :=
  forall₂_congr fun _ _ => by rw [← Option.isSome_iff_ne_none, lookup_isSome_iff]

theorem Declares.mono {names : List String} (h : table.Declares names)
    (hcolumns : ∀ column ∈ table.columns, ∃ other ∈ edited.columns, key other = key column) :
    edited.Declares names := by
  rw [declares_iff] at h ⊢
  intro name hname
  obtain ⟨column, hcolumn, hkey⟩ := h name hname
  obtain ⟨other, hother, hsame⟩ := hcolumns column hcolumn
  exact ⟨other, hother, hsame.trans hkey⟩

/-- Columns that no name asks for may go. -/
theorem Declares.of_unused {names : List String} (h : table.Declares names)
    {front back : List Column} {old : Column} (middle : List Column)
    (hsplit : table.columns = front ++ old :: back)
    (hedited : edited.columns = front ++ middle ++ back)
    (hunused : ∀ name ∈ names, lowerCase name ≠ key old) : edited.Declares names := by
  rw [declares_iff] at h ⊢
  intro name hname
  obtain ⟨column, hcolumn, hkey⟩ := h name hname
  refine ⟨column, ?_, hkey⟩
  rw [hsplit] at hcolumn
  rw [hedited]
  rcases List.mem_append.mp hcolumn with hfront | hback
  · simp [hfront]
  · rcases List.mem_cons.mp hback with rfl | hback
    · exact absurd hkey.symm (hunused name hname)
    · simp [hback]

/-! ## What successful changes and removals do -/

theorem releaseColumn_eq_ok_iff {name : String} :
    table.releaseColumn name = .ok () ↔
      ∀ used ∈ table.keyColumns, lowerCase used ≠ lowerCase name := by
  refine ⟨fun hok used hused hsame => ?_, releaseColumn_eq_ok⟩
  have hnone : table.columnUser? name = none := by
    unfold releaseColumn at hok
    split at hok
    next => cases hok
    next hnone => exact hnone
  simp only [columnUser?] at hnone
  split at hnone
  next => cases hnone
  next hindexes =>
    have hkeys := Option.map_eq_none_iff.mp hnone
    rw [List.find?_eq_none] at hindexes hkeys
    rcases mem_keyColumns.mp hused with ⟨index, hindex, hmem⟩ | ⟨foreignKey, hkey, hmem⟩
    · exact hindexes index hindex (List.any_eq_true.mpr ⟨used, hmem, sameName_iff.mpr hsame⟩)
    · exact hkeys foreignKey hkey (List.any_eq_true.mpr ⟨used, hmem, sameName_iff.mpr hsame⟩)

theorem requireColumn_split {name : String} {position : Nat}
    (h : table.requireColumn name = .ok position) :
    ∃ front old back, table.columns = front ++ old :: back ∧ front.length = position ∧
      key old = lowerCase name := by
  unfold requireColumn at h
  split at h
  next found hfound =>
    obtain rfl := Except.ok.inj h
    exact exists_split_of_findIdx? hfound
  next => cases h

theorem removeColumn_split {name : String} (hok : table.removeColumn name = .ok edited) :
    ∃ front old back, table.columns = front ++ old :: back ∧ key old = lowerCase name ∧
      (∀ used ∈ table.keyColumns, lowerCase used ≠ key old) ∧
      edited = { table with columns := front ++ back } := by
  obtain ⟨position, hposition, hok⟩ := bind_eq_ok_iff.mp hok
  obtain ⟨⟨⟩, hrelease, hok⟩ := bind_eq_ok_iff.mp hok
  obtain ⟨front, old, back, hsplit, rfl, hold⟩ := requireColumn_split hposition
  have herase : table.columns.eraseIdx front.length = front ++ back := by
    simp [hsplit, List.eraseIdx_append_of_length_le]
  obtain rfl := Except.ok.inj hok
  rw [herase]
  exact ⟨front, old, back, hsplit, hold, hold ▸ releaseColumn_eq_ok_iff.mp hrelease, rfl⟩

/-- A column comes into the place of one of its name, or of one that no key uses. -/
theorem replaceColumn_split {name : String} {column : Column}
    (hok : table.replaceColumn name column = .ok edited) :
    ∃ front old back, table.columns = front ++ old :: back ∧ key old = lowerCase name ∧
      (key column = key old ∨ ∀ used ∈ table.keyColumns, lowerCase used ≠ key old) ∧
      lookup (front ++ back) (key column) = none ∧ Admissible column ∧
      edited = { table with columns := front ++ column :: back } := by
  obtain ⟨position, hposition, hok⟩ := bind_eq_ok_iff.mp hok
  obtain ⟨front, old, back, hsplit, rfl, hold⟩ := requireColumn_split hposition
  have hplace : (key column = key old ∨ ∀ used ∈ table.keyColumns, lowerCase used ≠ key old) ∧
      (do table.checkColumn (table.columns.eraseIdx front.length) column
          return { table with columns := table.columns.set front.length column }) =
        Except.ok edited := by
    split at hok
    next hsame => exact ⟨.inl ((sameName_iff.mp hsame).trans hold.symm), hok⟩
    next =>
      obtain ⟨⟨⟩, hrelease, hok⟩ := bind_eq_ok_iff.mp hok
      exact ⟨.inr (hold ▸ releaseColumn_eq_ok_iff.mp hrelease), hok⟩
  obtain ⟨hplace, hok⟩ := hplace
  obtain ⟨⟨⟩, hcheck, hok⟩ := bind_eq_ok_iff.mp hok
  have herase : table.columns.eraseIdx front.length = front ++ back := by
    simp [hsplit, List.eraseIdx_append_of_length_le]
  have hset : table.columns.set front.length column = front ++ column :: back := by
    simp [hsplit]
  rw [herase] at hcheck
  obtain ⟨hfree, hadmissible⟩ := (checkColumn_eq_ok_iff table).mp hcheck
  obtain rfl := Except.ok.inj hok
  rw [hset]
  exact ⟨front, old, back, hsplit, hold, hplace, hfree, hadmissible, rfl⟩

theorem removeIndex_cases {name : String} (hok : table.removeIndex name = .ok edited) :
    lowerCase name = Index.primaryKey ∧ edited = { table with primaryKey := none } ∨
      lowerCase name ≠ Index.primaryKey ∧
        edited = { table with indexes := Named.erase name table.indexes } := by
  unfold removeIndex at hok
  split at hok
  next hname =>
    split at hok
    next =>
      obtain rfl := Except.ok.inj hok
      exact .inl ⟨sameName_iff.mp hname, rfl⟩
    next => cases hok
  next hname =>
    split at hok
    next =>
      obtain rfl := Except.ok.inj hok
      exact .inr ⟨fun heq => hname (sameName_iff.mpr heq), rfl⟩
    next => cases hok

theorem removeForeignKey_eq {name : String} (hok : table.removeForeignKey name = .ok edited) :
    edited = { table with foreignKeys := Named.erase name table.foreignKeys } := by
  unfold removeForeignKey at hok
  split at hok
  next => exact (Except.ok.inj hok).symm
  next => cases hok

/-! ## Valid tables stay valid -/

namespace Valid

theorem new (name : String) : Valid { name } :=
  (Built.new name).wellFormed.valid

theorem addColumn (h : table.Valid) {column : Column}
    (hok : table.addColumn column = .ok edited) : edited.Valid := by
  have hcoherent := h.toCoherent.addColumn hok
  obtain ⟨_, hadmissible, rfl⟩ := addColumn_eq_ok_iff.mp hok
  refine ⟨hcoherent, ?_, ?_, h.arity⟩
  · intro other hother
    rcases List.mem_append.mp hother with hother | hother
    · exact h.admissible other hother
    · rwa [List.mem_singleton.mp hother]
  · exact h.declared.mono fun other hother => ⟨other, List.mem_append_left _ hother, rfl⟩

theorem setPrimaryKey (h : table.Valid) {columns : List String}
    (hok : table.setPrimaryKey columns = .ok edited) : edited.Valid := by
  have hcoherent := h.toCoherent.setPrimaryKey hok
  obtain ⟨_, resolved, hresolve, rfl⟩ := setPrimaryKey_eq_ok_iff.mp hok
  have hkept : ∀ column ∈ table.columns,
      ∃ other ∈ requireValues resolved table.columns, key other = key column := by
    intro column hcolumn
    obtain ⟨other, hother, hsame⟩ := exists_mem_requireValues resolved hcolumn
    exact ⟨other, hother, congrArg lowerCase hsame⟩
  refine ⟨hcoherent, admissible_requireValues h.admissible, ?_, h.arity⟩
  · intro name hname
    rcases mem_keyColumns.mp hname with ⟨index, hindex, hused⟩ | hforeign
    · rcases List.mem_append.mp hindex with hindex | hindex
      · obtain rfl := Option.some.inj (Option.mem_toList.mp hindex)
        exact (spells_of_resolve hresolve).declares.mono hkept name hused
      · exact h.declared.mono hkept name
          (mem_keyColumns.mpr (.inl ⟨index, List.mem_append_right _ hindex, hused⟩))
    · exact h.declared.mono hkept name (mem_keyColumns.mpr (.inr hforeign))

theorem addIndex (h : table.Valid) {index : Index}
    (hok : table.addIndex index = .ok edited) : edited.Valid := by
  have hcoherent := h.toCoherent.addIndex hok
  cases hkind : index.isPrimary with
  | true =>
      rw [addIndex_primary hkind] at hok
      exact h.setPrimaryKey hok
  | false =>
      obtain ⟨_, _, resolved, hresolve, rfl⟩ := (addIndex_eq_ok_iff hkind).mp hok
      refine ⟨hcoherent, h.admissible, ?_, h.arity⟩
      intro name hname
      rcases mem_keyColumns.mp hname with ⟨other, hother, hused⟩ | hforeign
      · rcases List.mem_append.mp hother with hother | hother
        · exact h.declared name
            (mem_keyColumns.mpr (.inl ⟨other, List.mem_append_left _ hother, hused⟩))
        · rcases List.mem_cons.mp ((insert_perm _ _).mem_iff.mp hother) with rfl | hother
          · exact (spells_of_resolve hresolve).declares name hused
          · exact h.declared name
              (mem_keyColumns.mpr (.inl ⟨other, List.mem_append_right _ hother, hused⟩))
      · exact h.declared name (mem_keyColumns.mpr (.inr hforeign))

theorem addForeignKey (h : table.Valid) {foreignKey : ForeignKey}
    (hok : table.addForeignKey foreignKey = .ok edited) : edited.Valid := by
  have hcoherent := h.toCoherent.addForeignKey hok
  obtain ⟨_, harity, resolved, hresolve, rfl⟩ := addForeignKey_eq_ok_iff.mp hok
  refine ⟨hcoherent, h.admissible, ?_, ?_⟩
  · intro name hname
    rcases mem_keyColumns.mp hname with hindex | ⟨other, hother, hused⟩
    · exact h.declared name (mem_keyColumns.mpr (.inl hindex))
    · rcases List.mem_cons.mp ((insert_perm _ _).mem_iff.mp hother) with rfl | hother
      · exact (spells_of_resolve hresolve).declares name hused
      · exact h.declared name (mem_keyColumns.mpr (.inr ⟨other, hother, hused⟩))
  · intro other hother
    rcases List.mem_cons.mp ((insert_perm _ _).mem_iff.mp hother) with rfl | hother
    · exact (length_of_resolve hresolve).trans harity
    · exact h.arity other hother

theorem removeColumn (h : table.Valid) {name : String}
    (hok : table.removeColumn name = .ok edited) : edited.Valid := by
  obtain ⟨front, old, back, hsplit, _, hunused, rfl⟩ := removeColumn_split hok
  have hsublist : (front ++ back).Sublist table.columns := by
    rw [hsplit]
    exact List.Sublist.append_left (List.sublist_cons_self old back) front
  refine ⟨⟨h.columns.sublist hsublist, h.primary, h.secondary, h.indexes, h.foreignKeys⟩,
    fun column hcolumn => h.admissible column (hsublist.mem hcolumn), ?_, h.arity⟩
  exact h.declared.of_unused [] hsplit (by simp) hunused

theorem replaceColumn (h : table.Valid) {name : String} {column : Column}
    (hok : table.replaceColumn name column = .ok edited) : edited.Valid := by
  obtain ⟨front, old, back, hsplit, _, hplace, hfree, hadmissible, rfl⟩ := replaceColumn_split hok
  have hdistinct : Distinct (column :: (front ++ back)) := by
    refine distinct_cons.mpr ⟨hfree, h.columns.sublist ?_⟩
    rw [hsplit]
    exact List.Sublist.append_left (List.sublist_cons_self old back) front
  refine ⟨⟨hdistinct.perm List.perm_middle.symm, h.primary, h.secondary, h.indexes,
    h.foreignKeys⟩, ?_, ?_, h.arity⟩
  · intro other hother
    rcases List.mem_cons.mp (List.perm_middle.mem_iff.mp hother) with rfl | hother
    · exact hadmissible
    · refine h.admissible other ?_
      rw [hsplit]
      exact List.perm_middle.mem_iff.mpr (List.mem_cons_of_mem _ hother)
  · rcases hplace with hsame | hunused
    · refine h.declared.mono fun other hother => ?_
      rw [hsplit] at hother
      rcases List.mem_cons.mp (List.perm_middle.mem_iff.mp hother) with rfl | hother
      · exact ⟨column, by simp, hsame⟩
      · exact ⟨other, List.perm_middle.mem_iff.mpr (List.mem_cons_of_mem _ hother), rfl⟩
    · exact h.declared.of_unused [column] hsplit (by simp) hunused

theorem removeIndex (h : table.Valid) {name : String}
    (hok : table.removeIndex name = .ok edited) : edited.Valid := by
  rcases removeIndex_cases hok with ⟨_, rfl⟩ | ⟨_, rfl⟩
  · refine ⟨⟨h.columns, by simp, h.secondary, h.indexes, h.foreignKeys⟩, h.admissible, ?_, h.arity⟩
    intro used hused
    refine h.declared used (mem_keyColumns.mpr ?_)
    refine (mem_keyColumns.mp hused).imp_left fun ⟨index, hindex, hmem⟩ => ?_
    exact ⟨index, List.mem_append_right _ hindex, hmem⟩
  · have hsublist : (Named.erase name table.indexes).Sublist table.indexes := List.eraseP_sublist
    refine ⟨⟨h.columns, h.primary, fun index hindex => h.secondary index (hsublist.mem hindex),
      h.indexes.sublist hsublist, h.foreignKeys⟩, h.admissible, ?_, h.arity⟩
    intro used hused
    refine h.declared used (mem_keyColumns.mpr ?_)
    refine (mem_keyColumns.mp hused).imp_left fun ⟨index, hindex, hmem⟩ => ?_
    refine ⟨index, List.mem_append.mpr ?_, hmem⟩
    exact (List.mem_append.mp hindex).imp id hsublist.mem

theorem removeForeignKey (h : table.Valid) {name : String}
    (hok : table.removeForeignKey name = .ok edited) : edited.Valid := by
  obtain rfl := removeForeignKey_eq hok
  have hsublist : (Named.erase name table.foreignKeys).Sublist table.foreignKeys :=
    List.eraseP_sublist
  refine ⟨⟨h.columns, h.primary, h.secondary, h.indexes,
    h.foreignKeys.sublist hsublist⟩, h.admissible, ?_,
    fun foreignKey hkey => h.arity foreignKey (hsublist.mem hkey)⟩
  intro used hused
  refine h.declared used (mem_keyColumns.mpr ?_)
  refine (mem_keyColumns.mp hused).imp_right fun ⟨foreignKey, hkey, hmem⟩ => ?_
  exact ⟨foreignKey, hsublist.mem hkey, hmem⟩

theorem rename (h : table.Valid) (name : String) : Valid { table with name } :=
  ⟨⟨h.columns, h.primary, h.secondary, h.indexes, h.foreignKeys⟩, h.admissible, h.declared,
    h.arity⟩

end Valid

end Table

end SchemaDelta
