import SchemaDelta.Proofs.Edit.Apply

/-!
# Edits of tables as statements

A statement that alters a table takes it out of its schema and puts it back.
Statements that alter one table after another time make the edits of that table,
and no others.
-/

namespace SchemaDelta

open Named

/-! ## Edits keep names -/

namespace Table

variable {table edited : Table}

theorem name_of_addColumn {column : Column} (h : table.addColumn column = .ok edited) :
    edited.name = table.name := by
  obtain ⟨_, _, rfl⟩ := addColumn_eq_ok_iff.mp h
  rfl

theorem name_of_addIndex {index : Index} (h : table.addIndex index = .ok edited) :
    edited.name = table.name := by
  cases hkind : index.isPrimary with
  | true =>
      rw [addIndex_primary hkind] at h
      obtain ⟨_, _, _, rfl⟩ := setPrimaryKey_eq_ok_iff.mp h
      rfl
  | false =>
      obtain ⟨_, _, _, _, rfl⟩ := (addIndex_eq_ok_iff hkind).mp h
      rfl

theorem name_of_addForeignKey {foreignKey : ForeignKey}
    (h : table.addForeignKey foreignKey = .ok edited) : edited.name = table.name := by
  obtain ⟨_, _, _, _, rfl⟩ := addForeignKey_eq_ok_iff.mp h
  rfl

theorem name_of_removeColumn {name : String} (h : table.removeColumn name = .ok edited) :
    edited.name = table.name := by
  obtain ⟨position, _, h⟩ := bind_eq_ok_iff.mp h
  obtain ⟨_, _, h⟩ := bind_eq_ok_iff.mp h
  cases h
  rfl

theorem name_of_replaceColumn {name : String} {column : Column}
    (h : table.replaceColumn name column = .ok edited) : edited.name = table.name := by
  obtain ⟨position, _, h⟩ := bind_eq_ok_iff.mp h
  split at h
  next =>
    obtain ⟨_, _, h⟩ := bind_eq_ok_iff.mp h
    cases h
    rfl
  next =>
    obtain ⟨_, _, h⟩ := bind_eq_ok_iff.mp h
    obtain ⟨_, _, h⟩ := bind_eq_ok_iff.mp h
    cases h
    rfl

theorem name_of_removeIndex {name : String} (h : table.removeIndex name = .ok edited) :
    edited.name = table.name := by
  unfold removeIndex at h
  split at h <;> split at h
  all_goals
    cases h <;> rfl

theorem name_of_removeForeignKey {name : String}
    (h : table.removeForeignKey name = .ok edited) : edited.name = table.name := by
  unfold removeForeignKey at h
  split at h <;> cases h
  rfl

theorem name_of_renameIndex {old new : String} (h : table.renameIndex old new = .ok edited) :
    edited.name = table.name := by
  unfold renameIndex at h
  split at h
  next index _ =>
    obtain ⟨rest, hremove, hadd⟩ := bind_eq_ok_iff.mp h
    exact (name_of_addIndex hadd).trans (name_of_removeIndex hremove)
  next => cases h

theorem name_of_edit {edit : TableEdit} (h : table.edit edit = .ok edited) :
    edited.name = table.name := by
  cases edit with
  | dropForeignKey => exact name_of_removeForeignKey h
  | dropIndex => exact name_of_removeIndex h
  | dropColumn => exact name_of_removeColumn h
  | changeColumn => exact name_of_replaceColumn h
  | addColumn => exact name_of_addColumn h
  | addIndex => exact name_of_addIndex h
  | renameIndex => exact name_of_renameIndex h
  | addForeignKey => exact name_of_addForeignKey h

theorem Reaches.name {edits : List TableEdit} (h : table.Reaches edits edited) :
    edited.name = table.name := by
  induction edits generalizing table with
  | nil =>
      obtain rfl : table = edited := congrArg Prod.fst h
      rfl
  | cons edit edits ih =>
      obtain ⟨middle, hedit, hrest⟩ := h.of_cons
      exact (ih hrest).trans (name_of_edit hedit)

end Table

/-! ## Altering one table -/

namespace Schema

variable {schema edited : Schema} {table changed : Table}

theorem editAll_append (schema : Schema) (first second : List SchemaEdit) :
    schema.editAll (first ++ second) =
      schema.editAll first >>= fun edited => edited.editAll second :=
  List.foldlM_append ..

theorem alterTable_eq_ok (hkeyed : schema.Keyed) {name : String}
    (hfound : lookup schema.tableList (lowerCase name) = some table) {edit : TableEdit}
    (hedit : table.edit edit = .ok changed) :
    ∃ edited, schema.edit (.alterTable name edit) = .ok edited ∧ edited.Keyed ∧
      lookup edited.tableList =
        Function.update (lookup schema.tableList) (lowerCase name) (some changed) := by
  have hkey : key changed = lowerCase name := by
    rw [← (mem_of_lookup hfound).2, key, key]
    exact congrArg lowerCase (Table.name_of_edit hedit)
  obtain ⟨rest, hremove, hrest, hrestLookup⟩ := removeTable_eq_ok hkeyed hfound
  have hfree : lookup rest.tableList (key changed) = none := by
    rw [hrestLookup, hkey, Function.update_self]
  obtain ⟨edited, hadd, hedited, hlookup⟩ := addTable_eq_ok hrest hfree
  refine ⟨edited, ?_, hedited, ?_⟩
  · simp only [Schema.edit, hremove, hedit, bind, Except.bind, hadd]
  · rw [hlookup, hrestLookup, hkey, Function.update_idem]

/-- Statements that alter one table make the edits of it. -/
theorem alterTables_eq_ok (hkeyed : schema.Keyed) {name : String}
    (hfound : lookup schema.tableList (lowerCase name) = some table) {edits : List TableEdit}
    (hreaches : table.Reaches edits changed) :
    ∃ edited, schema.editAll (edits.map (.alterTable name)) = .ok edited ∧ edited.Keyed ∧
      lookup edited.tableList =
        Function.update (lookup schema.tableList) (lowerCase name) (some changed) := by
  induction edits generalizing schema table with
  | nil =>
      obtain rfl : table = changed := congrArg Prod.fst hreaches
      exact ⟨schema, rfl, hkeyed, by rw [← hfound, Function.update_eq_self]⟩
  | cons edit edits ih =>
      obtain ⟨middle, hedit, hrest⟩ := hreaches.of_cons
      obtain ⟨next, hok, hnext, hlookup⟩ := alterTable_eq_ok hkeyed hfound hedit
      have hfound' : lookup next.tableList (lowerCase name) = some middle := by
        rw [hlookup, Function.update_self]
      obtain ⟨edited, hall, hedited, hlookup'⟩ := ih hnext hfound' hrest
      refine ⟨edited, ?_, hedited, by rw [hlookup', hlookup, Function.update_idem]⟩
      rw [List.map_cons, editAll, List.foldlM_cons, hok]
      exact hall

theorem Coherent.alterTables (h : schema.Coherent) {name : String}
    (hfound : lookup schema.tableList (lowerCase name) = some table) {edits : List TableEdit}
    (hreaches : table.Reaches edits changed) (hchanged : changed.Coherent) :
    ∃ edited, schema.editAll (edits.map (.alterTable name)) = .ok edited ∧ edited.Coherent ∧
      lookup edited.tableList =
        Function.update (lookup schema.tableList) (lowerCase name) (some changed) := by
  obtain ⟨edited, hok, hkeyed, hlookup⟩ := alterTables_eq_ok h.keyed hfound hreaches
  exact ⟨edited, hok, .of_lookup hkeyed (h.of_update hlookup hchanged), hlookup⟩

/-- Renaming moves a table to another key, which may be the old one. -/
theorem Coherent.renameTable (h : schema.Coherent) {old new : String}
    (hfound : lookup schema.tableList (lowerCase old) = some table)
    (hfree : Function.update (lookup schema.tableList) (lowerCase old) none (lowerCase new) =
      none) :
    ∃ edited, schema.edit (.renameTable old new) = .ok edited ∧ edited.Coherent ∧
      lookup edited.tableList =
        Function.update (Function.update (lookup schema.tableList) (lowerCase old) none)
          (lowerCase new) (some { table with name := new }) := by
  obtain ⟨rest, hremove, hrest, hrestLookup⟩ := h.removeTable hfound
  have htable := h.table hfound
  have hrenamed : Table.Coherent { table with name := new } :=
    ⟨htable.columns, htable.primary, htable.secondary, htable.indexes, htable.foreignKeys⟩
  have hfree' : lookup rest.tableList (key { table with name := new }) = none := by
    rw [hrestLookup]
    exact hfree
  obtain ⟨edited, hadd, hedited, hlookup⟩ := hrest.addTable hrenamed hfree'
  refine ⟨edited, ?_, hedited, by rw [hlookup, hrestLookup]; rfl⟩
  simp only [Schema.edit, hremove, bind, Except.bind, hadd]

end Schema

end SchemaDelta
