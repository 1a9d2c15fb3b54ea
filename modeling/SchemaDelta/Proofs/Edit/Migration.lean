import SchemaDelta.Dialect
import SchemaDelta.Proofs.Edit.Statements

/-!
# Migrations

A migration visits the changed tables several times, and between the visits some
of them have lost foreign keys, some already have their new name, and some are
still to come.  What is known of every table at such a moment is listed in
entries, one for each table that the migration is concerned with; a visit
changes the entry of one table.
-/

namespace SchemaDelta

open Named

/-- The key of a table, and what is known about the table. -/
structure TableEntry where
  key : String
  fact : Table → Prop

/-- Of the keys that are `touched`, those with an entry have a table of which it
is true, and the others have none; all other tables are as in the end. -/
structure Stage (touched : String → Prop) (target : String → Option Table)
    (entries : List TableEntry) (tables : String → Option Table) : Prop where
  found : ∀ entry ∈ entries, ∃ table, tables entry.key = some table ∧ entry.fact table
  absent : ∀ k, touched k → (∀ entry ∈ entries, entry.key ≠ k) → tables k = none
  kept : ∀ k, ¬ touched k → Option.Rel Table.Matches (tables k) (target k)

namespace Stage

variable {touched : String → Prop} {target tables : String → Option Table}
  {entries others : List TableEntry}

theorem perm (h : Stage touched target entries tables) (hperm : entries.Perm others) :
    Stage touched target others tables :=
  ⟨fun entry hentry => h.found entry (hperm.mem_iff.mpr hentry),
    fun k hk hnot => h.absent k hk fun entry hentry => hnot entry (hperm.mem_iff.mp hentry),
    h.kept⟩

theorem drop {entry : TableEntry} (h : Stage touched target (entry :: entries) tables)
    (htouched : touched entry.key) (hentries : ∀ other ∈ entries, other.key ≠ entry.key) :
    Stage touched target entries (Function.update tables entry.key none) := by
  refine ⟨fun other hmem => ?_, fun k hk hnot => ?_, fun k hk => ?_⟩
  · rw [Function.update_of_ne (hentries other hmem)]
    exact h.found other (List.mem_cons_of_mem _ hmem)
  · by_cases heq : k = entry.key
    · rw [heq, Function.update_self]
    · rw [Function.update_of_ne heq]
      refine h.absent k hk fun other hmem => ?_
      rcases List.mem_cons.mp hmem with rfl | hmem
      · exact Ne.symm heq
      · exact hnot other hmem
  · have hne : k ≠ entry.key := fun heq => hk (heq ▸ htouched)
    rw [Function.update_of_ne hne]
    exact h.kept k hk

theorem create {entry : TableEntry} (h : Stage touched target entries tables)
    (htouched : touched entry.key) (hentries : ∀ other ∈ entries, other.key ≠ entry.key)
    {table : Table} (hfact : entry.fact table) :
    Stage touched target (entry :: entries)
      (Function.update tables entry.key (some table)) := by
  refine ⟨fun other hmem => ?_, fun k hk hnot => ?_, fun k hk => ?_⟩
  · rcases List.mem_cons.mp hmem with rfl | hmem
    · exact ⟨table, Function.update_self .., hfact⟩
    · rw [Function.update_of_ne (hentries other hmem)]
      exact h.found other hmem
  · rw [Function.update_of_ne (hnot entry List.mem_cons_self).symm]
    exact h.absent k hk fun other hmem => hnot other (List.mem_cons_of_mem _ hmem)
  · have hne : k ≠ entry.key := fun heq => hk (heq ▸ htouched)
    rw [Function.update_of_ne hne]
    exact h.kept k hk

end Stage

/-! ## Visits -/

namespace Schema

variable {touched : String → Prop} {target : String → Option Table} {schema : Schema}
  {entries : List TableEntry}

/-- Statements that change one table, whatever the rest of the schema is like. -/
def Visits (before after : TableEntry) (edits : List SchemaEdit) : Prop :=
  ∀ (schema : Schema) (table : Table), schema.Coherent →
    lookup schema.tableList before.key = some table → before.fact table →
    Function.update (lookup schema.tableList) before.key none after.key = none →
    ∃ edited changed, schema.editAll edits = .ok edited ∧ edited.Coherent ∧
      after.fact changed ∧
      lookup edited.tableList =
        Function.update (Function.update (lookup schema.tableList) before.key none) after.key
          (some changed)

/-- Visits to tables that have nothing to do with each other. -/
theorem exists_visited {ι : Type} {before after : ι → TableEntry} {edits : ι → List SchemaEdit}
    {items : List ι} (hvisits : ∀ item ∈ items, Visits (before item) (after item) (edits item))
    (htouched : ∀ item ∈ items, touched (before item).key ∧ touched (after item).key)
    (hapart : items.Pairwise fun a b => ∀ k, (k = (before a).key ∨ k = (after a).key) →
      ¬(k = (before b).key ∨ k = (after b).key))
    (hentries : ∀ item ∈ items, ∀ entry ∈ entries,
      entry.key ≠ (before item).key ∧ entry.key ≠ (after item).key)
    (hcoherent : schema.Coherent)
    (h : Stage touched target (items.map before ++ entries) (lookup schema.tableList)) :
    ∃ edited, schema.editAll (items.flatMap edits) = .ok edited ∧ edited.Coherent ∧
      Stage touched target (items.map after ++ entries) (lookup edited.tableList) := by
  induction items generalizing schema entries with
  | nil => exact ⟨schema, rfl, hcoherent, h⟩
  | cons item items ih =>
      obtain ⟨hfirstApart, hrestApart⟩ := List.pairwise_cons.mp hapart
      obtain ⟨hbefore, hafter⟩ := htouched item List.mem_cons_self
      have hothers : ∀ entry ∈ items.map before ++ entries,
          entry.key ≠ (before item).key ∧ entry.key ≠ (after item).key := by
        intro entry hentry
        rcases List.mem_append.mp hentry with hentry | hentry
        · obtain ⟨other, hother, rfl⟩ := List.mem_map.mp hentry
          exact ⟨fun heq => hfirstApart other hother _ (.inl heq) (.inl rfl),
            fun heq => hfirstApart other hother _ (.inr heq) (.inl rfl)⟩
        · exact hentries item List.mem_cons_self entry hentry
      have hdropped := h.drop hbefore fun entry hentry => (hothers entry hentry).1
      have hfree : Function.update (lookup schema.tableList) (before item).key none
          (after item).key = none :=
        hdropped.absent _ hafter fun entry hentry => (hothers entry hentry).2
      obtain ⟨table, hfound, hfact⟩ := h.found (before item) List.mem_cons_self
      obtain ⟨middle, changed, hok, hmiddle, hchanged, hlookup⟩ :=
        hvisits item List.mem_cons_self schema table hcoherent hfound hfact hfree
      have hstage := hdropped.create hafter (fun entry hentry => (hothers entry hentry).2) hchanged
      rw [← hlookup] at hstage
      obtain ⟨edited, hrest, hedited, hlast⟩ := ih
        (fun other hother => hvisits other (List.mem_cons_of_mem _ hother))
        (fun other hother => htouched other (List.mem_cons_of_mem _ hother)) hrestApart
        (fun other hother entry hentry => by
          rcases List.mem_cons.mp hentry with rfl | hentry
          · exact ⟨fun heq => hfirstApart other hother _ (.inr rfl) (.inl heq),
              fun heq => hfirstApart other hother _ (.inr rfl) (.inr heq)⟩
          · exact hentries other (List.mem_cons_of_mem _ hother) entry hentry)
        hmiddle (hstage.perm List.perm_middle.symm)
      refine ⟨edited, ?_, hedited, hlast.perm List.perm_middle⟩
      rw [List.flatMap_cons, editAll_append, hok]
      exact hrest

/-- Tables that are dropped. -/
theorem exists_dropped {items : List Table} {fact : Table → Table → Prop}
    (htouched : ∀ item ∈ items, touched (key item)) (hdistinct : Distinct items)
    (hentries : ∀ item ∈ items, ∀ entry ∈ entries, entry.key ≠ key item)
    (hcoherent : schema.Coherent)
    (h : Stage touched target (items.map (fun item => ⟨key item, fact item⟩) ++ entries)
      (lookup schema.tableList)) :
    ∃ edited, schema.editAll (items.map (.dropTable ·.name)) = .ok edited ∧ edited.Coherent ∧
      Stage touched target entries (lookup edited.tableList) := by
  induction items generalizing schema with
  | nil => exact ⟨schema, rfl, hcoherent, h⟩
  | cons item items ih =>
      obtain ⟨hfirst, hrest⟩ := List.pairwise_cons.mp hdistinct
      obtain ⟨table, hfound, _⟩ := h.found ⟨key item, fact item⟩ List.mem_cons_self
      obtain ⟨middle, hok, hmiddle, hlookup⟩ :=
        Coherent.removeTable hcoherent (show lookup _ (lowerCase item.name) = _ from hfound)
      have hstage := h.drop (htouched item List.mem_cons_self) fun entry hentry => by
        rcases List.mem_append.mp hentry with hentry | hentry
        · obtain ⟨other, hother, rfl⟩ := List.mem_map.mp hentry
          exact (hfirst other hother).symm
        · exact hentries item List.mem_cons_self entry hentry
      obtain ⟨edited, hall, hedited, hlast⟩ := ih
        (fun other hother => htouched other (List.mem_cons_of_mem _ hother)) hrest
        (fun other hother => hentries other (List.mem_cons_of_mem _ hother)) hmiddle
        (hlookup ▸ hstage)
      refine ⟨edited, ?_, hedited, hlast⟩
      rw [List.map_cons, editAll, List.foldlM_cons, Schema.edit, hok]
      exact hall

/-- Tables that are created. -/
theorem exists_created {items : List Table} (htables : ∀ item ∈ items, item.Coherent)
    (htouched : ∀ item ∈ items, touched (key item)) (hdistinct : Distinct items)
    (hentries : ∀ item ∈ items, ∀ entry ∈ entries, entry.key ≠ key item)
    (hcoherent : schema.Coherent)
    (h : Stage touched target entries (lookup schema.tableList)) :
    ∃ edited, schema.editAll (items.map .createTable) = .ok edited ∧ edited.Coherent ∧
      Stage touched target (items.map (fun item => ⟨key item, (·.Matches item)⟩) ++ entries)
        (lookup edited.tableList) := by
  induction items generalizing schema entries with
  | nil => exact ⟨schema, rfl, hcoherent, h⟩
  | cons item items ih =>
      obtain ⟨hfirst, hrest⟩ := List.pairwise_cons.mp hdistinct
      have hfree := h.absent (key item) (htouched item List.mem_cons_self)
        (hentries item List.mem_cons_self)
      obtain ⟨middle, hok, hmiddle, hlookup⟩ :=
        hcoherent.addTable (htables item List.mem_cons_self) hfree
      have hstage : Stage touched target (⟨key item, (·.Matches item)⟩ :: entries) _ :=
        h.create (htouched item List.mem_cons_self) (hentries item List.mem_cons_self)
          (Table.Matches.refl item)
      obtain ⟨edited, hall, hedited, hlast⟩ := ih
        (fun other hother => htables other (List.mem_cons_of_mem _ hother))
        (fun other hother => htouched other (List.mem_cons_of_mem _ hother)) hrest
        (fun other hother entry hentry => by
          rcases List.mem_cons.mp hentry with rfl | hentry
          · exact hfirst other hother
          · exact hentries other (List.mem_cons_of_mem _ hother) entry hentry)
        hmiddle (hlookup ▸ hstage)
      refine ⟨edited, ?_, hedited, hlast.perm List.perm_middle⟩
      rw [List.map_cons, editAll, List.foldlM_cons, Schema.edit, hok]
      exact hall

end Schema

/-! ## The visits of a migration -/

namespace Table

variable {old new table : Table}

/-- A table between the visits that drop and add its foreign keys. -/
structure Halfway (old new side table : Table) : Prop where
  columns : Agree Column.Same (lookup table.columns) (lookup side.columns)
  indexes : Agree Index.Same (lookup table.allIndexes) (lookup side.allIndexes)
  foreignKeys : Agree ForeignKey.Same (lookup table.foreignKeys) (keptForeignKeys old new)

theorem key_of_reaches {edited : Table} {edits : List TableEdit}
    (h : table.Reaches edits edited) : key edited = key table :=
  congrArg lowerCase h.name

theorem reaches_no_foreignKeys (hcoherent : table.Coherent)
    (hagree : Agree ForeignKey.Same (lookup table.foreignKeys) (lookup old.foreignKeys))
    (hold : old.Coherent) :
    ∃ edited, table.Reaches (old.foreignKeys.map (.dropForeignKey ·.name)) edited ∧
      edited.Coherent := by
  have haccount : Account ForeignKey.Same (lookup old.foreignKeys) (fun _ => none)
      old.foreignKeys [] [] := by
    refine ⟨fun item hitem => ⟨?_, rfl⟩, by simp, by simp, ?_, .nil, fun k hk _ => ?_⟩
    · exact lookup_key hold.foreignKeys.distinct hitem
    · simpa using hold.foreignKeys.distinct
    · rw [List.map_nil, List.append_nil] at hk
      rw [hk]
      exact .none
  obtain ⟨foreignKeys, hreaches, hedited, _⟩ := reaches_foreignKeys hcoherent haccount hagree
    (.of_eq (Account.moves_drop _)) (realises_map fun foreignKey _ => .drop foreignKey)
  exact ⟨_, hreaches, hedited⟩

end Table

namespace Schema

/-- Visits that alter a table without renaming it. -/
theorem visits_alter {k : String} {name : String} (hname : lowerCase name = k)
    {before after : Table → Prop} {edits : List TableEdit}
    (hreaches : ∀ table, table.Coherent → key table = k → before table →
      ∃ edited, table.Reaches edits edited ∧ edited.Coherent ∧ after edited) :
    Visits ⟨k, before⟩ ⟨k, after⟩ (edits.map (.alterTable name)) := by
  subst k
  intro schema table hcoherent hfound hbefore _
  obtain ⟨changed, hall, hchanged, hafter⟩ :=
    hreaches table (hcoherent.table hfound) (mem_of_lookup hfound).2 hbefore
  obtain ⟨edited, hok, hedited, hlookup⟩ := hcoherent.alterTables hfound hall hchanged
  exact ⟨edited, changed, hok, hedited, hafter, by rw [hlookup, Function.update_idem]⟩

section Visits

variable {change : Change Table} (hold : change.old.WellFormed) (hnew : change.new.WellFormed)

theorem lowerCase_targetName (old new : Table) :
    lowerCase (old.diff new).targetName = key new :=
  Table.key_targetName (rfl : key old = key old)

include hold hnew

theorem visits_drop_foreignKeys :
    Visits ⟨key change.old, (·.Matches change.old)⟩
      ⟨key change.old, Table.Halfway change.old change.new change.old⟩
      ((change.old.diff change.new).foreignKeys.dropped.map fun foreignKey =>
        .alterTable (change.old.diff change.new).name (.dropForeignKey foreignKey.name)) := by
  have hvisits : Visits ⟨key change.old, (·.Matches change.old)⟩
      ⟨key change.old, Table.Halfway change.old change.new change.old⟩
      (((change.old.diff change.new).foreignKeys.dropped.map
        (.dropForeignKey ·.name)).map (.alterTable (change.old.diff change.new).name)) :=
    visits_alter rfl fun table hcoherent _ hmatches => by
      obtain ⟨foreignKeys, hreaches, hedited, hagree⟩ :=
        Table.reaches_dropped_foreignKeys hold hnew hcoherent hmatches.foreignKeys
      exact ⟨_, hreaches, hedited, hmatches.columns, hmatches.indexes, hagree⟩
  rwa [List.map_map] at hvisits

theorem visits_create_foreignKeys :
    Visits ⟨key change.new, Table.Halfway change.old change.new change.new⟩
      ⟨key change.new, (·.Matches change.new)⟩
      ((change.old.diff change.new).foreignKeys.created.map fun foreignKey =>
        .alterTable (change.old.diff change.new).targetName (.addForeignKey foreignKey)) := by
  have hvisits : Visits ⟨key change.new, Table.Halfway change.old change.new change.new⟩
      ⟨key change.new, (·.Matches change.new)⟩
      (((change.old.diff change.new).foreignKeys.created.map .addForeignKey).map
        (.alterTable (change.old.diff change.new).targetName)) :=
    visits_alter (lowerCase_targetName _ _) fun table hcoherent hkey hhalfway => by
      obtain ⟨foreignKeys, hreaches, hedited, hagree⟩ :=
        Table.reaches_created_foreignKeys hold hnew hcoherent hhalfway.columns
          hhalfway.foreignKeys
      exact ⟨_, hreaches, hedited, (Table.key_of_reaches hreaches).trans hkey,
        hhalfway.columns, hhalfway.indexes, hagree⟩
  rwa [List.map_map] at hvisits

omit hold hnew in
/-- Renaming leaves a table as it is if it keeps its name. -/
theorem exists_nameChange {old new table : Table} {schema : Schema}
    (hcoherent : schema.Coherent) (hfound : lookup schema.tableList (key old) = some table)
    (hfree : Function.update (lookup schema.tableList) (key old) none (key new) = none) :
    ∃ edited name, schema.editAll (old.diff new).nameChange = .ok edited ∧ edited.Coherent ∧
      lookup edited.tableList =
        Function.update (Function.update (lookup schema.tableList) (key old) none) (key new)
          (some { table with name }) := by
  by_cases hname : sameName old.name new.name = true
  · have hkey : key new = key old := (sameName_iff.mp hname).symm
    refine ⟨schema, table.name, ?_, hcoherent, ?_⟩
    · rw [TableDiff.nameChange, Table.diff, if_pos hname]
      rfl
    · rw [hkey, Function.update_idem, ← hfound, Function.update_eq_self]
  · obtain ⟨edited, hok, hedited, hlookup⟩ := hcoherent.renameTable hfound hfree
    refine ⟨edited, new.name, ?_, hedited, hlookup⟩
    have hchange : (old.diff new).nameChange = [.renameTable old.name new.name] := by
      rw [TableDiff.nameChange, Table.diff, if_neg hname]
      rfl
    have hok' : schema.edit (.renameTable old.name new.name) = .ok edited := hok
    rw [hchange, editAll, List.foldlM_cons, hok']
    rfl

theorem visits_change :
    Visits ⟨key change.old, Table.Halfway change.old change.new change.old⟩
      ⟨key change.new, Table.Halfway change.old change.new change.new⟩
      ((change.old.diff change.new).nameChange ++
        (change.old.diff change.new).alterations.map
          (.alterTable (change.old.diff change.new).targetName)) := by
  intro schema table hcoherent hfound hhalfway hfree
  obtain ⟨middle, name, hrename, hmiddle, hlookup⟩ :=
    exists_nameChange hcoherent hfound hfree
  have hfound' : lookup middle.tableList
      (lowerCase (change.old.diff change.new).targetName) = some { table with name } := by
    rw [lowerCase_targetName, hlookup, Function.update_self]
  have hforeignKeys := Table.declares_of_agree_keptForeignKeys hold hnew
    (hcoherent.table hfound).foreignKeys.distinct hhalfway.foreignKeys
  obtain ⟨columns, primaryKey, indexes, hreaches, hchanged, hcolumns, hindexes⟩ :=
    Table.reaches_alterations hold hnew (hmiddle.table hfound') hhalfway.columns
      hhalfway.indexes hforeignKeys
  obtain ⟨edited, hok, hedited, hlookup'⟩ := hmiddle.alterTables hfound' hreaches hchanged
  refine ⟨edited, _, ?_, hedited, ⟨hcolumns, hindexes, hhalfway.foreignKeys⟩, ?_⟩
  · rw [editAll_append, hrename]
    exact hok
  · rw [hlookup', lowerCase_targetName, hlookup, Function.update_idem]

end Visits

/-! ## Migrations between schemas -/

theorem visits_remove {table : Table} (htable : table.Coherent) :
    Visits ⟨key table, (·.Matches table)⟩ ⟨key table, fun _ => True⟩
      (table.foreignKeys.map fun foreignKey =>
        .alterTable table.name (.dropForeignKey foreignKey.name)) := by
  have hvisits : Visits ⟨key table, (·.Matches table)⟩ ⟨key table, fun _ => True⟩
      ((table.foreignKeys.map (.dropForeignKey ·.name)).map (.alterTable table.name)) :=
    visits_alter rfl fun other hcoherent _ hmatches => by
      obtain ⟨edited, hreaches, hedited⟩ :=
        Table.reaches_no_foreignKeys hcoherent hmatches.foreignKeys htable
      exact ⟨edited, hreaches, hedited, trivial⟩
  rwa [List.map_map] at hvisits

variable {old new base : Schema}

/-- The keys that the difference between two schemas is concerned with. -/
def Touched (old new : Schema) (k : String) : Prop :=
  ∃ move ∈ Account.moves (old.diff new).removed (replacedTables old new) (old.diff new).added,
    move.Touches k

theorem touched_iff {k : String} :
    Touched old new k ↔
      (∃ table ∈ (old.diff new).removed, k = key table) ∨
        (∃ change ∈ replacedTables old new, k = key change.old ∨ k = key change.new) ∨
          ∃ table ∈ (old.diff new).added, k = key table := by
  unfold Touched Account.moves
  constructor
  · rintro ⟨move, hmove, hk⟩
    rcases List.mem_append.mp hmove with hmove | hadded
    · rcases List.mem_append.mp hmove with hremoved | hreplaced
      · obtain ⟨table, htable, rfl⟩ := List.mem_map.mp hremoved
        exact .inl ⟨table, htable, hk⟩
      · obtain ⟨change, hchange, rfl⟩ := List.mem_map.mp hreplaced
        exact .inr (.inl ⟨change, hchange, hk⟩)
    · obtain ⟨table, htable, rfl⟩ := List.mem_map.mp hadded
      exact .inr (.inr ⟨table, htable, hk⟩)
  · rintro (⟨table, htable, hk⟩ | ⟨change, hchange, hk⟩ | ⟨table, htable, hk⟩)
    · exact ⟨_, List.mem_append_left _ (List.mem_append_left _ (List.mem_map_of_mem htable)), hk⟩
    · exact ⟨_, List.mem_append_left _ (List.mem_append_right _ (List.mem_map_of_mem hchange)),
        hk⟩
    · exact ⟨_, List.mem_append_right _ (List.mem_map_of_mem htable), hk⟩

/-- The entry of a table that matches. -/
def entryOf (table : Table) : TableEntry :=
  ⟨key table, (·.Matches table)⟩

section Account

variable (haccount : Account Table.Matches (lookup old.tableList) (lookup new.tableList)
  (old.diff new).removed (replacedTables old new) (old.diff new).added)

include haccount

theorem stage_start (hmatches : base.Matches old) :
    Stage (Touched old new) (lookup new.tableList)
      ((old.diff new).removed.map entryOf
        ++ (replacedTables old new).map fun change => entryOf change.old)
      (lookup base.tableList) := by
  refine ⟨?_, ?_, ?_⟩
  · intro entry hentry
    rcases List.mem_append.mp hentry with hentry | hentry
    · obtain ⟨table, htable, rfl⟩ := List.mem_map.mp hentry
      exact hmatches.exists_of_eq_some_right (haccount.removed_fits table htable).1
    · obtain ⟨change, hchange, rfl⟩ := List.mem_map.mp hentry
      exact hmatches.exists_of_eq_some_right (haccount.replaced_fits change hchange).1
  · intro k hk hnot
    have hremoved : ∀ table ∈ (old.diff new).removed, key table ≠ k := fun table htable =>
      hnot (entryOf table) (List.mem_append_left _ (List.mem_map_of_mem htable))
    have hreplaced : ∀ change ∈ replacedTables old new, key change.old ≠ k :=
      fun change hchange => hnot (entryOf change.old)
        (List.mem_append_right _ (List.mem_map.mpr ⟨change, hchange, rfl⟩))
    rw [hmatches.eq_none_iff]
    rcases touched_iff.mp hk with ⟨table, htable, rfl⟩ | ⟨change, hchange, hk⟩ | ⟨table, htable, rfl⟩
    · exact absurd rfl (hremoved table htable)
    · obtain rfl := hk.resolve_left (hreplaced change hchange).symm
      rcases (haccount.replaced_fits change hchange).2.2 with hsame | ⟨hnone, _⟩
      · exact absurd hsame.symm (hreplaced change hchange)
      · exact hnone
    · exact (haccount.added_fits table htable).1
  · intro k hk
    have hrel := haccount.kept_of_not_touched fun move hmove htouches =>
      hk ⟨move, hmove, htouches⟩
    have hbase := hmatches k
    revert hrel hbase
    cases lookup base.tableList k <;> cases lookup old.tableList k <;>
      cases lookup new.tableList k <;> simp
    exact fun hab hbc => hbc.trans hab

theorem agree_of_stage {tables : String → Option Table}
    (h : Stage (Touched old new) (lookup new.tableList)
      ((replacedTables old new).map (fun change => entryOf change.new)
        ++ (old.diff new).added.map entryOf) tables) :
    Agree Table.Matches tables (lookup new.tableList) := by
  have hentry : ∀ {table : Table}, lookup new.tableList (key table) = some table →
      entryOf table ∈ (replacedTables old new).map (fun change => entryOf change.new)
        ++ (old.diff new).added.map entryOf →
      Option.Rel Table.Matches (tables (key table)) (lookup new.tableList (key table)) := by
    intro table htarget hmem
    obtain ⟨found, hfound, hmatches⟩ := h.found (entryOf table) hmem
    rw [htarget, show tables (key table) = some found from hfound]
    exact .some hmatches
  intro k
  by_cases hcome : ∃ table, key table = k ∧ lookup new.tableList k = some table ∧
      entryOf table ∈ (replacedTables old new).map (fun change => entryOf change.new)
        ++ (old.diff new).added.map entryOf
  · obtain ⟨table, rfl, htarget, hmem⟩ := hcome
    exact hentry htarget hmem
  · by_cases hk : Touched old new k
    · have hnot : ∀ change ∈ replacedTables old new, key change.new ≠ k := by
        rintro change hchange rfl
        exact hcome ⟨change.new, rfl, (haccount.replaced_fits change hchange).2.1,
          List.mem_append_left _ (List.mem_map.mpr ⟨change, hchange, rfl⟩)⟩
      have hnotAdded : ∀ table ∈ (old.diff new).added, key table ≠ k := by
        rintro table htable rfl
        exact hcome ⟨table, rfl, (haccount.added_fits table htable).2,
          List.mem_append_right _ (List.mem_map_of_mem htable)⟩
      have htables : tables k = none := by
        refine h.absent k hk fun entry hmem => ?_
        rcases List.mem_append.mp hmem with hmem | hmem
        · obtain ⟨change, hchange, rfl⟩ := List.mem_map.mp hmem
          exact hnot change hchange
        · obtain ⟨table, htable, rfl⟩ := List.mem_map.mp hmem
          exact hnotAdded table htable
      have htarget : lookup new.tableList k = none := by
        rcases touched_iff.mp hk with ⟨table, htable, rfl⟩ | ⟨change, hchange, hk⟩ |
          ⟨table, htable, rfl⟩
        · exact (haccount.removed_fits table htable).2
        · obtain rfl := hk.resolve_right (hnot change hchange).symm
          exact ((haccount.replaced_fits change hchange).2.2.resolve_left
            (hnot change hchange)).2
        · exact absurd rfl (hnotAdded table htable)
      rw [htables, htarget]
      exact .none
    · exact h.kept k hk

/-- One visit to each of the tables that change. -/
theorem exists_visited_replaced {before after : Change Table → TableEntry}
    {edits : Change Table → List SchemaEdit} {entries : List TableEntry} {schema : Schema}
    (hbefore : ∀ change, (before change).key = key change.old ∨
      (before change).key = key change.new)
    (hafter : ∀ change, (after change).key = key change.old ∨
      (after change).key = key change.new)
    (hvisits : ∀ change ∈ replacedTables old new,
      Visits (before change) (after change) (edits change))
    (hentries : ∀ entry ∈ entries,
      ∃ table ∈ (old.diff new).removed ++ (old.diff new).added, entry.key = key table)
    (hcoherent : schema.Coherent)
    (h : Stage (Touched old new) (lookup new.tableList)
      ((replacedTables old new).map before ++ entries) (lookup schema.tableList)) :
    ∃ edited, schema.editAll ((replacedTables old new).flatMap edits) = .ok edited ∧
      edited.Coherent ∧
      Stage (Touched old new) (lookup new.tableList)
        ((replacedTables old new).map after ++ entries) (lookup edited.tableList) := by
  have htouched : ∀ change ∈ replacedTables old new, ∀ k,
      (k = key change.old ∨ k = key change.new) → Touched old new k :=
    fun change hchange k hk => touched_iff.mpr (.inr (.inl ⟨change, hchange, hk⟩))
  have hother : ∀ change ∈ replacedTables old new, ∀ entry ∈ entries, ∀ k,
      (k = key change.old ∨ k = key change.new) → entry.key ≠ k := by
    intro change hchange entry hentry k hk
    obtain ⟨table, htable, hkey⟩ := hentries entry hentry
    rw [hkey]
    rcases List.mem_append.mp htable with htable | htable <;> rcases hk with rfl | rfl
    · exact haccount.removed_ne_old htable hchange
    · exact haccount.removed_ne_new htable hchange
    · exact haccount.added_ne_old htable hchange
    · exact haccount.added_ne_new htable hchange
  have hkeys : ∀ change k, (k = (before change).key ∨ k = (after change).key) →
      k = key change.old ∨ k = key change.new := by
    rintro change k (rfl | rfl)
    · exact hbefore change
    · exact hafter change
  refine exists_visited hvisits
    (fun change hchange => ⟨htouched change hchange _ (hbefore change),
      htouched change hchange _ (hafter change)⟩)
    (haccount.replaced_apart.imp fun {a b} hapart k hk hk' =>
      hapart k (hkeys a k hk) (hkeys b k hk'))
    (fun change hchange entry hentry => ⟨hother change hchange entry hentry _ (hbefore change),
      hother change hchange entry hentry _ (hafter change)⟩) hcoherent h

/-- One visit to each of the tables that go away. -/
theorem exists_visited_removed (hold : old.Coherent) {entries : List TableEntry}
    {schema : Schema}
    (hentries : ∀ table ∈ (old.diff new).removed, ∀ entry ∈ entries, entry.key ≠ key table)
    (hcoherent : schema.Coherent)
    (h : Stage (Touched old new) (lookup new.tableList)
      ((old.diff new).removed.map entryOf ++ entries) (lookup schema.tableList)) :
    ∃ edited,
      schema.editAll ((old.diff new).removed.flatMap fun table =>
          table.foreignKeys.map fun foreignKey =>
            .alterTable table.name (.dropForeignKey foreignKey.name)) = .ok edited ∧
        edited.Coherent ∧
        Stage (Touched old new) (lookup new.tableList)
          ((old.diff new).removed.map (fun table => ⟨key table, fun _ => True⟩) ++ entries)
          (lookup edited.tableList) := by
  refine exists_visited
    (fun table htable => visits_remove (hold.table (haccount.removed_fits table htable).1))
    (fun table htable => and_self_iff.mpr (touched_iff.mpr (.inl ⟨table, htable, rfl⟩)))
    (haccount.removed_distinct.imp fun hne k hk hk' => ?_)
    (fun table htable entry hentry => and_self_iff.mpr (hentries table htable entry hentry))
    hcoherent h
  exact hne ((or_self_iff.mp hk).symm.trans (or_self_iff.mp hk'))

end Account

/-- A migration can be carried out on every schema that matches the old one, and
leads to one that matches the new one. -/
theorem migration_eq_ok (hold : old.WellFormed) (hnew : new.WellFormed) (hbase : base.Coherent)
    (hmatches : base.Matches old) :
    ∃ reached, base.editAll (old.diff new).migration = .ok reached ∧ reached.Coherent ∧
      reached.Matches new := by
  have haccount := diff_account hold.coherent hnew.coherent
  have holdChange : ∀ change ∈ replacedTables old new, change.old.WellFormed :=
    fun change hchange =>
      hold.tables _ (mem_of_lookup (haccount.replaced_fits change hchange).1).1
  have hnewChange : ∀ change ∈ replacedTables old new, change.new.WellFormed :=
    fun change hchange =>
      hnew.tables _ (mem_of_lookup (haccount.replaced_fits change hchange).2.1).1
  have hremoved : ∀ table ∈ (old.diff new).removed, ∀ change ∈ replacedTables old new,
      key change.old ≠ key table := fun table htable change hchange =>
    (haccount.removed_ne_old htable hchange).symm
  obtain ⟨first, hfirst, hfirstCoherent, hfirstStage⟩ :=
    exists_visited_removed haccount hold.coherent
      (fun table htable entry hentry => by
        obtain ⟨change, hchange, rfl⟩ := List.mem_map.mp hentry
        exact hremoved table htable change hchange)
      hbase (stage_start haccount hmatches)
  obtain ⟨second, hsecond, hsecondCoherent, hsecondStage⟩ :=
    exists_visited_replaced haccount (fun _ => .inl rfl) (fun _ => .inl rfl)
      (fun change hchange =>
        visits_drop_foreignKeys (holdChange change hchange) (hnewChange change hchange))
      (fun entry hentry => by
        obtain ⟨table, htable, rfl⟩ := List.mem_map.mp hentry
        exact ⟨table, List.mem_append_left _ htable, rfl⟩)
      hfirstCoherent (hfirstStage.perm List.perm_append_comm)
  obtain ⟨third, hthird, hthirdCoherent, hthirdStage⟩ :=
    exists_dropped (fun table htable => touched_iff.mpr (.inl ⟨table, htable, rfl⟩))
      haccount.removed_distinct
      (fun table htable entry hentry => by
        obtain ⟨change, hchange, rfl⟩ := List.mem_map.mp hentry
        exact hremoved table htable change hchange)
      hsecondCoherent (hsecondStage.perm List.perm_append_comm)
  obtain ⟨fourth, hfourth, hfourthCoherent, hfourthStage⟩ :=
    exists_created
      (fun table htable => hnew.coherent.table (haccount.added_fits table htable).2)
      (fun table htable => touched_iff.mpr (.inr (.inr ⟨table, htable, rfl⟩)))
      haccount.added_distinct
      (fun table htable entry hentry => by
        obtain ⟨change, hchange, rfl⟩ := List.mem_map.mp hentry
        exact (haccount.added_ne_old htable hchange).symm)
      hthirdCoherent hthirdStage
  have hadded : ∀ entry ∈ (old.diff new).added.map entryOf,
      ∃ table ∈ (old.diff new).removed ++ (old.diff new).added, entry.key = key table := by
    intro entry hentry
    obtain ⟨table, htable, rfl⟩ := List.mem_map.mp hentry
    exact ⟨table, List.mem_append_right _ htable, rfl⟩
  obtain ⟨fifth, hfifth, hfifthCoherent, hfifthStage⟩ :=
    exists_visited_replaced haccount (fun _ => .inl rfl) (fun _ => .inr rfl)
      (fun change hchange =>
        visits_change (holdChange change hchange) (hnewChange change hchange))
      hadded hfourthCoherent (hfourthStage.perm List.perm_append_comm)
  obtain ⟨last, hlast, hlastCoherent, hlastStage⟩ :=
    exists_visited_replaced haccount (fun _ => .inr rfl) (fun _ => .inr rfl)
      (fun change hchange =>
        visits_create_foreignKeys (holdChange change hchange) (hnewChange change hchange))
      hadded hfifthCoherent hfifthStage
  refine ⟨last, ?_, hlastCoherent, agree_of_stage haccount hlastStage⟩
  rw [SchemaDiff.migration, diff_changed]
  simp only [List.flatMap_map, editAll_append, hfirst, hsecond, hthird, hfourth, hfifth, bind,
    Except.bind]
  exact hlast

end Schema

/-- The statements that a dialect writes for a difference are those of a migration
that can be carried out on the old schema, without a step that fails, and leaves
no difference to the new one. -/
theorem Dialect.statements_reach (dialect : Dialect) {old new : Schema} (hold : old.Built)
    (hnew : new.Built) :
    dialect.statements (old.diff new) = (old.diff new).migration.map dialect.statement ∧
      ∃ reached, old.editAll (old.diff new).migration = .ok reached ∧
        (reached.diff new).isEmpty = true := by
  have hold' := hold.wellFormed
  have hnew' := hnew.wellFormed
  obtain ⟨reached, hok, hreached, hmatches⟩ :=
    Schema.migration_eq_ok hold' hnew' hold'.coherent (.refl .refl _)
  exact ⟨rfl, reached, hok, (Schema.diff_isEmpty_iff hreached hnew'.coherent).mpr hmatches⟩

theorem Dialect.statements_reach_renamed :
    ∃ reached,
      (Schema.ofTable (.ofColumn "a" "id")).editAll
          ((Schema.ofTable (.ofColumn "a" "id")).diff
            (.ofTable (.ofColumn "b" "id"))).migration = .ok reached ∧
        (reached.diff (.ofTable (.ofColumn "b" "id"))).isEmpty = true :=
  (Dialect.statements_reach Dialect.mysql (Schema.ofTable_built (Table.ofColumn_built "a" "id"))
    (Schema.ofTable_built (Table.ofColumn_built "b" "id"))).2

end SchemaDelta
