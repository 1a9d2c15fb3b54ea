import SchemaDelta.Proofs.Edit.TableFrame

/-!
# What differences leave alone

Tables are taken out of a schema, changed and put back under their names.  What a difference
does not name stays where it is meanwhile.
-/

namespace SchemaDelta

open Named

/-! ## Differences of schemas -/

def SchemaDiff.namesTable (diff : SchemaDiff) (name : String) : Bool :=
  contains name diff.removed || contains name diff.added ||
    diff.changed.any fun table => sameName table.name name || sameName table.targetName name

namespace Schema

variable {schema edited : Schema} {untouched : String → Prop}

/-- Under the untouched keys, the edited schema has what was there.  Of a schema that has a
table under another key than its own, only the tables that were there are known to stay. -/
structure Spares (schema : Schema) (untouched : String → Prop) (edited : Schema) : Prop where
  name : edited.name = schema.name
  keyed : schema.Keyed → edited.Keyed
  kept : ∀ k, untouched k → ∀ table, schema.tables.get? k = some table →
    edited.tables.get? k = some table
  same : schema.Keyed → ∀ k, untouched k → edited.tables.get? k = schema.tables.get? k

theorem Spares.refl (schema : Schema) (untouched : String → Prop) :
    schema.Spares untouched schema :=
  ⟨rfl, id, fun _ _ _ => id, fun _ _ _ => rfl⟩

theorem Spares.trans {middle : Schema} (h : schema.Spares untouched middle)
    (hrest : middle.Spares untouched edited) : schema.Spares untouched edited :=
  ⟨hrest.name.trans h.name, fun hkeyed => hrest.keyed (h.keyed hkeyed),
    fun k hk table htable => hrest.kept k hk table (h.kept k hk table htable),
    fun hkeyed k hk => (hrest.same (h.keyed hkeyed) k hk).trans (h.same hkeyed k hk)⟩

theorem spares_foldlM {β : Type} {step : Schema → β → Except SchemaError Schema} {items : List β}
    (hstep : ∀ item ∈ items, ∀ before after : Schema, step before item = .ok after →
      before.Spares untouched after) (hok : items.foldlM step schema = .ok edited) :
    schema.Spares untouched edited :=
  foldlM_keeps (fun item hmem before after hbefore hafter =>
    hbefore.trans (hstep item hmem before after hafter)) (Spares.refl schema untouched) hok

theorem addTable_cases {table : Table} (hok : schema.addTable table = .ok edited) :
    schema.tables.get? (key table) = none ∧
      edited = { schema with tables := schema.tables.insert (key table) table } := by
  unfold addTable at hok
  split at hok
  next => cases hok
  next hfree =>
    rw [SortedMap.contains_eq_isSome, Bool.not_eq_true, Option.isSome_eq_false_iff,
      Option.isNone_iff_eq_none] at hfree
    exact ⟨hfree, (Except.ok.inj hok).symm⟩

theorem removeTable_cases {name : String} {table : Table}
    (hok : schema.removeTable name = .ok (table, edited)) :
    schema.tables.get? (lowerCase name) = some table ∧
      edited = { schema with tables := schema.tables.erase (lowerCase name) } := by
  unfold removeTable at hok
  split at hok
  next found hfound =>
    obtain ⟨rfl, rfl⟩ := Prod.mk.inj (Except.ok.inj hok)
    exact ⟨hfound, rfl⟩
  next => cases hok

theorem spares_addTable {table : Table} (hok : schema.addTable table = .ok edited)
    (hne : ¬untouched (key table)) : schema.Spares untouched edited := by
  have hkeyed : schema.Keyed → edited.Keyed := fun hkeyed => hkeyed.addTable hok
  obtain ⟨-, rfl⟩ := addTable_cases hok
  have hget : ∀ k, untouched k →
      (schema.tables.insert (key table) table).get? k = schema.tables.get? k := by
    intro k hk
    have hother : k ≠ key table := fun heq => hne (heq ▸ hk)
    rw [SortedMap.get?_insert, Function.update_of_ne hother]
  exact ⟨rfl, hkeyed, fun k hk _ htable => (hget k hk).trans htable, fun _ => hget⟩

theorem spares_removeTable {name : String} {table : Table}
    (hok : schema.removeTable name = .ok (table, edited)) (hne : ¬untouched (lowerCase name)) :
    schema.Spares untouched edited := by
  have hkeyed : schema.Keyed → edited.Keyed := fun hkeyed => hkeyed.removeTable hok
  obtain ⟨-, rfl⟩ := removeTable_cases hok
  have hget : ∀ k, untouched k →
      (schema.tables.erase (lowerCase name)).get? k = schema.tables.get? k := by
    intro k hk
    have hother : k ≠ lowerCase name := fun heq => hne (heq ▸ hk)
    rw [SortedMap.get?_erase, Function.update_of_ne hother]
  exact ⟨rfl, hkeyed, fun k hk _ htable => (hget k hk).trans htable, fun _ => hget⟩

theorem spares_applyTableDiff {diff : TableDiff} (hok : schema.applyTableDiff diff = .ok edited)
    (hold : ¬untouched (lowerCase diff.name)) (hnew : ¬untouched (lowerCase diff.targetName)) :
    schema.Spares untouched edited := by
  have hedited : schema.Keyed → edited.Keyed := fun hkeyed => hkeyed.applyTableDiff hok
  obtain ⟨⟨table, rest⟩, hremove, hok⟩ := bind_eq_ok_iff.mp hok
  have hrest := spares_removeTable hremove hold
  obtain ⟨changed, happly, hadd⟩ : ∃ changed, diff.applyTo table = (changed, none) ∧
      rest.addTable changed = .ok edited := by
    dsimp only at hok
    split at hok
    next changed happly => exact ⟨changed, happly, hok⟩
    next => cases hok
  obtain ⟨hfree, heq⟩ := addTable_cases hadd
  refine ⟨heq ▸ hrest.name, hedited, fun k hk other hother => ?_, fun hkeyed => ?_⟩
  · -- The changed table may have any name here, but not that of a table that is there.
    have hkept := hrest.kept k hk other hother
    have hother : k ≠ key changed := by
      rintro rfl
      rw [hfree] at hkept
      cases hkept
    have hadded : rest.Spares (· = k) edited := spares_addTable hadd hother.symm
    exact hadded.kept k rfl other hkept
  · obtain ⟨last, hreaches, rfl⟩ := TableDiff.exists_reaches_of_applyTo happly
    have htable : lowerCase diff.name = key table :=
      hkeyed _ (SortedMap.get?_eq_some_iff.mp (removeTable_cases hremove).1)
    have hchanged : ¬untouched (lowerCase (diff.newName.getD last.name)) := by
      rw [hreaches.name]
      cases hrenamed : diff.newName with
      | none => exact fun hname => hold (htable ▸ hname)
      | some new =>
          rw [TableDiff.targetName, hrenamed] at hnew
          exact hnew
    have hadded := (spares_addTable hadd hchanged).same (hrest.keyed hkeyed)
    exact fun k hk => (hadded k hk).trans (hrest.same hkeyed k hk)

/-- A key of names that the difference does not name. -/
def Unnamed (diff : SchemaDiff) (k : String) : Prop :=
  ∃ name, lowerCase name = k ∧ diff.namesTable name = false

theorem not_unnamed {diff : SchemaDiff} {name : String} (h : diff.namesTable name = true) :
    ¬Unnamed diff (lowerCase name) := by
  rintro ⟨other, hsame, hother⟩
  have hcongr : diff.namesTable other = diff.namesTable name := by
    simp only [SchemaDiff.namesTable, contains, sameName, hsame]
  rw [hcongr, h] at hother
  cases hother

theorem spares_applyTo {diff : SchemaDiff} (hok : diff.applyTo schema = .ok edited) :
    schema.Spares (Unnamed diff) edited := by
  have hremoved : ∀ table ∈ diff.removed, ¬Unnamed diff (lowerCase table.name) := by
    intro table hmem
    have hnamed : contains table.name diff.removed = true :=
      contains_of_mem hmem (sameName_iff.mpr rfl)
    exact not_unnamed (by rw [SchemaDiff.namesTable, hnamed, Bool.true_or, Bool.true_or])
  have hadded : ∀ table ∈ diff.added, ¬Unnamed diff (lowerCase table.name) := by
    intro table hmem
    have hnamed : contains table.name diff.added = true :=
      contains_of_mem hmem (sameName_iff.mpr rfl)
    exact not_unnamed (by rw [SchemaDiff.namesTable, hnamed, Bool.or_true, Bool.true_or])
  have hchanged : ∀ table ∈ diff.changed, ¬Unnamed diff (lowerCase table.name) ∧
      ¬Unnamed diff (lowerCase table.targetName) := by
    intro table hmem
    have hnamed : ∀ name, sameName table.name name = true ∨ sameName table.targetName name = true →
        diff.namesTable name = true := by
      intro name hname
      rw [SchemaDiff.namesTable, Bool.or_eq_true]
      exact .inr (List.any_eq_true.mpr ⟨table, hmem, (Bool.or_eq_true ..).mpr hname⟩)
    exact ⟨not_unnamed (hnamed _ (.inl (sameName_iff.mpr rfl))),
      not_unnamed (hnamed _ (.inr (sameName_iff.mpr rfl)))⟩
  obtain ⟨reduced, hremove, hok⟩ := bind_eq_ok_iff.mp hok
  obtain ⟨changed, hchange, hadd⟩ := bind_eq_ok_iff.mp hok
  have hreduced : schema.Spares (Unnamed diff) reduced := by
    refine spares_foldlM (fun table hmem before after hafter => ?_) hremove
    obtain ⟨⟨_, rest⟩, htaken, hpure⟩ := bind_eq_ok_iff.mp hafter
    obtain rfl := Except.ok.inj hpure
    exact spares_removeTable htaken (hremoved table hmem)
  have hchanges : reduced.Spares (Unnamed diff) changed :=
    spares_foldlM (fun table hmem _ _ hafter =>
      spares_applyTableDiff hafter (hchanged table hmem).1 (hchanged table hmem).2) hchange
  have hedited : changed.Spares (Unnamed diff) edited :=
    spares_foldlM (fun table hmem _ _ hafter => spares_addTable hafter (hadded table hmem)) hadd
  exact (hreduced.trans hchanges).trans hedited

end Schema

/-- What a difference does not name stays as it was.  A schema keeps its name and its other
tables, and a table the order of its columns, of which only those of a new primary key
become NOT NULL. -/
theorem applyTo_frame :
    (∀ (diff : SchemaDiff) (schema edited : Schema), diff.applyTo schema = .ok edited →
      edited.name = schema.name ∧
        (∀ name, diff.namesTable name = false → ∀ table, schema.table? name = some table →
          edited.table? name = some table) ∧
        (schema.Keyed → ∀ name, diff.namesTable name = false →
          edited.table? name = schema.table? name)) ∧
      ∀ (diff : TableDiff) (table edited : Table), table.Valid →
        diff.applyTo table = (edited, none) → diff.Frames table edited := by
  refine ⟨fun diff schema edited hok => ?_, fun _ _ _ => TableDiff.frames_of_applyTo⟩
  have hspares := Schema.spares_applyTo hok
  exact ⟨hspares.name, fun name hname => hspares.kept _ ⟨name, rfl, hname⟩,
    fun hkeyed name hname => hspares.same hkeyed _ ⟨name, rfl, hname⟩⟩

/-- A column of integers that may be NULL. -/
def Column.ofName (name : String) : Column :=
  { name, kind := .integer, typeName := "integer" }

/-- A table whose columns move up by one name. -/
def Table.movingUp : Table where
  name := "t"
  columns := [.ofName "a", .ofName "b", .ofName "d", .ofName "e"]

/-- Each column takes the name that the one behind it has given up, and the first one comes
into a primary key. -/
def TableDiff.movingUp : TableDiff where
  name := "T"
  newName := some "u"
  columns := {
    removed := [.ofName "D"]
    renamed := [⟨.ofName "b", .ofName "c"⟩, ⟨.ofName "A", .ofName "B"⟩]
    added := [.ofName "d"] }
  indexes := { added := [⟨"x", .primary, ["b"]⟩] }

def Table.movedUp : Table where
  name := "u"
  columns := [{ Column.ofName "B" with nullable := false }, .ofName "c", .ofName "e", .ofName "d"]
  primaryKey := some (.primary ["B"])

/-- Names of this difference are given up and taken again in it. -/
theorem applyTo_frame_movingUp :
    (∃ edited, SchemaDiff.applyTo { changed := [.movingUp] }
        (.ofTables [.movingUp, .ofColumn "other" "id"]) = .ok edited ∧
      edited.table? "OTHER" = some (.ofColumn "other" "id")) ∧
      Table.movingUp.Valid ∧ TableDiff.movingUp.applyTo .movingUp = (.movedUp, none) ∧
      TableDiff.movingUp.Frames .movingUp .movedUp := by
  have hcalls : Table.after { name := "t" } (Table.movingUp.columns.map .addColumn)
      = .movingUp := by
    decide
  have hvalid : Table.movingUp.Valid := hcalls ▸ (Table.Valid.new "t").after _
  have hok : TableDiff.movingUp.applyTo .movingUp = (.movedUp, none) := by decide
  have hschema : SchemaDiff.applyTo { changed := [.movingUp] }
      (.ofTables [.movingUp, .ofColumn "other" "id"]) =
        .ok (.ofTables [.ofColumn "other" "id", .movedUp]) := by decide
  refine ⟨⟨_, hschema, ?_⟩, hvalid, hok, applyTo_frame.2 _ _ _ hvalid hok⟩
  exact (applyTo_frame.1 _ _ _ hschema).2.1 "OTHER" (by decide) _ (by decide +kernel)

end SchemaDelta
