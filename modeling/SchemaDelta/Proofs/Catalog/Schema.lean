import SchemaDelta.Proofs.Catalog.Assemble

/-!
# Catalogs and scripts agree

A schema that is built from a script is described by rows, as a server lists them.  What is
put together of the rows, in whatever order they come, does not differ from the schema.
-/

namespace SchemaDelta

open Named

/-! ## Catalogs of schemas -/

/-- The rows of the tables of a schema, in their order. -/
def Schema.catalog (schema : Schema) : Catalog where
  tables := schema.tableList.map (·.name)
  columns := schema.tableList.flatMap fun table => table.columns.map (Column.row table.name)
  indexes := schema.tableList.flatMap fun table => table.allIndexes.flatMap (Index.rows table.name)
  foreignKeys := schema.tableList.flatMap fun table =>
    table.foreignKeys.flatMap (ForeignKey.rows table.name)

namespace Catalog

/-- The catalog has the rows of the schema, in any order. -/
structure Describes (catalog : Catalog) (schema : Schema) : Prop where
  tables : catalog.tables.Perm schema.catalog.tables
  columns : catalog.columns.Perm schema.catalog.columns
  indexes : catalog.indexes.Perm schema.catalog.indexes
  foreignKeys : catalog.foreignKeys.Perm schema.catalog.foreignKeys

def indexGroups (catalog : Catalog) : List ((String × String) × List IndexRow) :=
  groups (fun row => (row.table, row.name)) IndexRow.position catalog.indexes

def foreignKeyGroups (catalog : Catalog) : List ((String × String) × List ForeignKeyRow) :=
  groups (fun row => (row.table, row.name)) ForeignKeyRow.position catalog.foreignKeys

/-- The steps that a catalog is put together by, each with the table it concerns. -/
def placedSteps (catalog : Catalog) (mapping : TypeMapping) : List (String × Step) :=
  catalog.columns.map (fun row => (row.table, fun state => addColumn mapping state row))
    ++ catalog.indexGroups.map (fun entry => (entry.1.1, fun state => addIndex state entry))
    ++ catalog.foreignKeyGroups.map fun entry =>
      (entry.1.1, fun state => addForeignKey state entry)

theorem assemble_eq_placedSteps (catalog : Catalog) (database : String) (mapping : TypeMapping) :
    catalog.assemble database mapping = (do
      let state ← (catalog.placedSteps mapping).foldlM (fun state placed => placed.2 state)
        ⟨emptyTables catalog.tables, []⟩
      let schema ← (state.tables.values.foldlM Schema.addTable { name := some database }).mapError
        .schema
      return ⟨schema, state.diagnostics⟩) := by
  simp only [assemble, placedSteps, indexGroups, foreignKeyGroups, List.foldlM_append,
    List.foldlM_map, bind_assoc]

def steps (catalog : Catalog) : List Step :=
  catalog.columns.map (fun row state => addColumn .mysql state row)
    ++ catalog.indexGroups.map (fun group state => addIndex state group)
    ++ catalog.foreignKeyGroups.map (fun group state => addForeignKey state group)

theorem steps_eq (catalog : Catalog) :
    catalog.steps = (catalog.placedSteps .mysql).map (·.2) := by
  simp only [steps, placedSteps, List.map_append, List.map_map]
  rfl

theorem assemble_eq (catalog : Catalog) (database : String) :
    catalog.assemble database .mysql = (do
      let state ← catalog.steps.foldlM (fun state step => step state)
        ⟨emptyTables catalog.tables, []⟩
      let schema ← (state.tables.values.foldlM Schema.addTable { name := some database }).mapError
        .schema
      return ⟨schema, state.diagnostics⟩) := by
  rw [assemble_eq_placedSteps, steps_eq, List.foldlM_map]

theorem get?_emptyTables (names : List String) (name : String) :
    (emptyTables names).get? name = if name ∈ names then some { name } else none := by
  suffices ∀ m : SortedMap Table,
      ((names.map fun name => (name, ({ name } : Table))).foldl
        (fun m entry => m.insert entry.1 entry.2) m).get? name
        = if name ∈ names then some { name } else m.get? name from this .empty
  induction names with
  | nil => exact fun m => rfl
  | cons first names ih =>
      intro m
      rw [List.map_cons, List.foldl_cons, ih, SortedMap.get?_insert]
      by_cases hmem : name ∈ names
      · simp [hmem]
      · by_cases hfirst : name = first
        · simp [hfirst]
        · simp [hmem, hfirst]

section Steps

variable {catalog : Catalog} {schema : Schema}

/-- Every row of a column, and every group of rows of a key, makes one edit, so that the edits
of each table are those that put it together. -/
theorem Describes.exists_edits (h : catalog.Describes schema)
    (hsourced : Build.SourcedSchema schema)
    (hwidth : ∀ table ∈ schema.tableList, ∀ column ∈ table.columns, column.WidthKnown) :
    ∃ edits, List.Forall₂ Makes catalog.steps edits ∧
      ∀ table ∈ schema.tableList, table.Assembles (editsAt table.name edits) := by
  have hdistinct := hsourced.keyed.distinct
  have hwellFormed : ∀ table ∈ schema.tableList, table.WellFormed := fun table htable =>
    (hsourced.tables table htable).1.wellFormed
  have hdeclared : ∀ table ∈ schema.tableList, table.Declared := fun table htable =>
    (hsourced.tables table htable).2
  have hindexGroups : catalog.indexGroups.Perm
      (entriesOf Table.allIndexes Index.rows schema.tableList) := by
    refine (grouped_entriesOf hdistinct (fun table htable =>
      (hwellFormed table htable).allIndexes_distinct) (fun table index => ?_)
      (fun table htable index hindex => Index.rows_ne_nil _ ?_) (fun table index => ?_)).groups_perm
      (h.indexes.trans (.of_eq (entriesOf_rows _ _ _).symm))
    · exact forall_mem_numbered fun _ _ => rfl
    · exact (hdeclared table htable).indexes index hindex
    · exact numbered_ascending fun _ _ => rfl
  have hforeignKeyGroups : catalog.foreignKeyGroups.Perm
      (entriesOf Table.foreignKeys ForeignKey.rows schema.tableList) := by
    refine (grouped_entriesOf hdistinct (fun table htable =>
      (hwellFormed table htable).foreignKeys.distinct) (fun table foreignKey => ?_)
      (fun table htable foreignKey hmem => ?_) (fun table foreignKey => ?_)).groups_perm
      (h.foreignKeys.trans (.of_eq (entriesOf_rows _ _ _).symm))
    · exact forall_mem_numbered fun _ _ => rfl
    · obtain ⟨hne, hreferenced⟩ := (hdeclared table htable).foreignKeys foreignKey hmem
      exact ForeignKey.rows_ne_nil _ hne hreferenced
    · exact numbered_ascending fun _ _ => rfl
  obtain ⟨columnEdits, hcolumnSteps, hcolumnEdits⟩ :=
    exists_placed (fun row state => addColumn .mysql state row)
      (fun table column => .addColumn (table.readColumn column)) h.columns
      fun table htable column hcolumn => makes_addColumn table
        (((hdeclared table htable).columns column hcolumn).restorable
          (hwidth table htable column hcolumn))
  obtain ⟨indexEdits, hindexSteps, hindexEdits⟩ :=
    exists_placed (fun group state => addIndex state group) (fun _ index => .addIndex index)
      hindexGroups fun table htable index hindex =>
        makes_addIndex table.name ((hwellFormed table htable).wellNamed hindex)
          ((hdeclared table htable).indexes index hindex)
  obtain ⟨foreignKeyEdits, hforeignKeySteps, hforeignKeyEdits⟩ :=
    exists_placed (fun group state => addForeignKey state group)
      (fun _ foreignKey => .addForeignKey foreignKey) hforeignKeyGroups
      fun table htable foreignKey hmem =>
        makes_addForeignKey table.name ((hdeclared table htable).foreignKeys foreignKey hmem).1
          ((hdeclared table htable).foreignKeys foreignKey hmem).2
          ((hwellFormed table htable).arity foreignKey hmem)
  refine ⟨columnEdits ++ indexEdits ++ foreignKeyEdits,
    List.rel_append (List.rel_append hcolumnSteps hindexSteps) hforeignKeySteps,
    fun table htable => ?_⟩
  rw [editsAt_append, editsAt_append]
  exact ⟨editsAt_perm hdistinct hcolumnEdits htable, editsAt_perm hdistinct hindexEdits htable,
    editsAt_perm hdistinct hforeignKeyEdits htable⟩

/-- What becomes of each table is told by its name. -/
theorem exists_target (hsourced : Build.SourcedSchema schema)
    (hwidth : ∀ table ∈ schema.tableList, ∀ column ∈ table.columns, column.WidthKnown)
    {edits : List (String × TableEdit)}
    (hedits : ∀ table ∈ schema.tableList, table.Assembles (editsAt table.name edits)) :
    ∃ target : String → Table, ∀ table ∈ schema.tableList,
      Table.Reaches { name := table.name } (editsAt table.name edits) (target table.name) ∧
        (target table.name).Coherent ∧ (target table.name).Matches table := by
  have hassembled : ∀ name, ∃ assembled, ∀ table ∈ schema.tableList, table.name = name →
      Table.Reaches { name } (editsAt name edits) assembled ∧ assembled.Coherent ∧
        assembled.Matches table := by
    intro name
    by_cases hname : name ∈ schema.tableList.map (·.name)
    · obtain ⟨table, htable, rfl⟩ := List.mem_map.mp hname
      obtain ⟨hbuilt, hdeclared⟩ := hsourced.tables table htable
      have hread : ∀ column ∈ table.columns, Column.Same (table.readColumn column) column := by
        intro column hcolumn
        obtain ⟨_, -, hread, hsame⟩ := Column.exists_columnDef_row table.name
          ((hdeclared.columns column hcolumn).restorable (hwidth table htable column hcolumn))
        rwa [hread] at hsame
      obtain ⟨assembled, hassembled⟩ :=
        hbuilt.wellFormed.exists_assembled hread (hedits table htable)
      refine ⟨assembled, fun other hother hsame => ?_⟩
      have hnames := nodup_names hsourced.keyed.distinct
      obtain rfl := List.inj_on_of_nodup_map hnames hother htable hsame
      exact hassembled
    · exact ⟨default, fun table htable hsame =>
        absurd (hsame ▸ List.mem_map_of_mem htable) hname⟩
  choose target htarget using hassembled
  exact ⟨target, fun table htable => htarget table.name table htable rfl⟩

/-- The steps succeed, and what they put together are tables that match those of the
schema. -/
theorem Describes.exists_tables (h : catalog.Describes schema)
    (hsourced : Build.SourcedSchema schema)
    (hwidth : ∀ table ∈ schema.tableList, ∀ column ∈ table.columns, column.WidthKnown) :
    ∃ state tables, catalog.steps.foldlM (fun state step => step state)
        ⟨emptyTables catalog.tables, []⟩ = .ok state ∧
      state.tables.values.Perm tables ∧ (∀ table ∈ tables, table.Coherent) ∧
        List.Forall₂ Table.Matches tables schema.tableList := by
  have hdistinct := hsourced.keyed.distinct
  obtain ⟨edits, hsteps, hedits⟩ := h.exists_edits hsourced hwidth
  obtain ⟨target, htarget⟩ := exists_target hsourced hwidth hedits
  have hlisted : ∀ name, (emptyTables catalog.tables).get? name
      = if name ∈ schema.tableList.map (·.name) then some { name } else none := by
    intro name
    rw [get?_emptyTables, if_congr h.tables.mem_iff rfl rfl]
    rfl
  obtain ⟨state, hrun, htables⟩ := exists_run hsteps ⟨emptyTables catalog.tables, []⟩ target (by
    intro name table hget
    rw [hlisted] at hget
    split at hget
    next hname =>
      obtain ⟨original, horiginal, rfl⟩ := List.mem_map.mp hname
      obtain rfl := Option.some.inj hget
      exact (htarget original horiginal).1
    next => cases hget)
  have hentries : state.tables.entries.Perm
      (schema.tableList.map fun table => (table.name, target table.name)) := by
    refine (List.perm_ext_iff_of_nodup ?_ ?_).mpr fun entry => ?_
    · exact state.tables.keys_ne.imp fun hne heq => hne (congrArg Prod.fst heq)
    · refine List.Nodup.of_map Prod.fst ?_
      rw [List.map_map]
      exact nodup_names hdistinct
    · obtain ⟨name, assembled⟩ := entry
      rw [← SortedMap.get?_eq_some_iff, htables, hlisted]
      constructor
      · intro hget
        split at hget
        next hname =>
          obtain ⟨table, htable, rfl⟩ := List.mem_map.mp hname
          exact List.mem_map.mpr ⟨table, htable, Prod.ext rfl (Option.some.inj hget)⟩
        next => cases hget
      · intro hmem
        obtain ⟨table, htable, ⟨⟩⟩ := List.mem_map.mp hmem
        rw [if_pos (List.mem_map_of_mem htable)]
        rfl
  refine ⟨state, schema.tableList.map fun table => target table.name, hrun, ?_, ?_, ?_⟩
  · have hvalues := hentries.map Prod.snd
    rwa [List.map_map] at hvalues
  · rw [List.forall_mem_map]
    exact fun table htable => (htarget table htable).2.1
  · rw [List.forall₂_map_left_iff, List.forall₂_same]
    exact fun table htable => (htarget table htable).2.2

end Steps

/-- The rows that describe a schema which a script builds lead to a schema that does not
differ from it. -/
theorem assemble_describes {settings : BuildSettings} {source : String} {output : BuildOutput}
    {catalog : Catalog} (hmapping : settings.mapping = .mysql)
    (hbuild : settings.build source = .ok output)
    (hwidth : ∀ table ∈ output.schema.tableList, ∀ column ∈ table.columns, column.WidthKnown)
    (hcatalog : catalog.Describes output.schema) (database : String) :
    ∃ result, catalog.assemble database .mysql = .ok result ∧
      (output.schema.diff result.schema).isEmpty = true := by
  have hsourced := Build.sourced_build hmapping hbuild
  have hcoherent : output.schema.Coherent := ⟨hsourced.keyed, fun table htable =>
    (hsourced.tables table htable).1.wellFormed.toCoherent⟩
  obtain ⟨state, tables, hrun, hvalues, htables, hmatches⟩ :=
    hcatalog.exists_tables hsourced hwidth
  have hagree : Agree Table.Matches (lookup tables) (lookup output.schema.tableList) :=
    agree_of_forall₂ (hmatches.imp fun _ _ h => ⟨h.name, h⟩)
  have hdistinct : Distinct tables := by
    have hkeys : tables.map key = output.schema.tableList.map key := by
      rw [← List.forall₂_eq_eq_eq, List.forall₂_map_left_iff, List.forall₂_map_right_iff]
      exact hmatches.imp fun _ _ h => h.name
    rw [distinct_iff_nodup, hkeys]
    exact distinct_iff_nodup.mp hsourced.keyed.distinct
  have hempty : Schema.Coherent { name := some database } :=
    (Schema.Built.new _).wellFormed.coherent
  obtain ⟨schema, hadd, hschema, hlookup⟩ := hempty.exists_addTables
    (fun table htable => htables table (hvalues.mem_iff.mp htable))
    (hdistinct.perm hvalues.symm) fun _ _ => rfl
  refine ⟨⟨schema, state.diagnostics⟩, ?_, ?_⟩
  · rw [assemble_eq, hrun]
    dsimp only [bind, Except.bind]
    rw [hadd]
    rfl
  · refine (Schema.diff_isEmpty_iff hcoherent hschema).mpr (Agree.symm .symm ?_)
    have hresult : lookup schema.tableList = lookup tables := by
      rw [lookup_perm hdistinct hvalues.symm]
      funext k
      exact (hlookup k).trans (Option.or_none)
    rw [hresult]
    exact hagree

end Catalog

/-- A table with a default that looks like a number, and a key to the table itself. -/
def Table.parts : Table where
  name := "parts"
  columns := [
    { name := "id", kind := .integer, typeName := "integer", nullable := false,
      autoIncrement := true },
    { name := "label", kind := .string, typeName := "string", length := some 8,
      default := some (.string "5"), comment := some "shown" },
    { name := "whole", kind := .integer, typeName := "integer", unsigned := true,
      default := some (.expression "(1 + 2)") }]
  primaryKey := some (.primary ["id"])
  indexes := [⟨"shown", .unique, ["whole", "label"]⟩]
  foreignKeys := [⟨"inside", ["whole"], "parts", ["id"], .noAction, .cascade⟩]

def Table.partsSource : String :=
  "CREATE TABLE parts (id INT AUTO_INCREMENT PRIMARY KEY, "
    ++ "label VARCHAR(8) DEFAULT '5' COMMENT 'shown', "
    ++ "whole INT UNSIGNED DEFAULT (1 + 2), UNIQUE KEY shown (whole, label), "
    ++ "CONSTRAINT inside FOREIGN KEY (whole) REFERENCES parts (id) ON DELETE CASCADE)"

/-- The rows of the table, those of an index out of order. -/
def Catalog.parts : Catalog where
  tables := ["parts"]
  columns := [
    ⟨"parts", "id", "INT", false, none, "auto_increment", ""⟩,
    ⟨"parts", "label", "VARCHAR(8)", true, some "'5'", "", "shown"⟩,
    ⟨"parts", "whole", "INT UNSIGNED", true, some "(1 + 2)", "DEFAULT_GENERATED", ""⟩]
  indexes := [
    ⟨"parts", "shown", false, "BTREE", 2, "label"⟩,
    ⟨"parts", "PRIMARY", false, "BTREE", 1, "id"⟩,
    ⟨"parts", "shown", false, "BTREE", 1, "whole"⟩]
  foreignKeys := [⟨"parts", "inside", 1, "whole", "parts", "id", "NO ACTION", "CASCADE"⟩]

theorem Catalog.assemble_describes_parts :
    ({} : BuildSettings).build Table.partsSource = .ok ⟨.ofTable .parts, []⟩ ∧
      Catalog.parts.Describes (.ofTable .parts) ∧
        ∃ result, Catalog.parts.assemble "shop" .mysql = .ok result ∧
          ((Schema.ofTable .parts).diff result.schema).isEmpty = true := by
  have hbuild : ({} : BuildSettings).build Table.partsSource = .ok ⟨.ofTable .parts, []⟩ := by
    unfold Table.partsSource
    have hchars := @String.toList_ofList
    rw [BuildSettings.build_of_toList _ (Sql.toList_append_of_eq (Sql.toList_append_of_eq
      (Sql.toList_append_of_eq hchars hchars) hchars) hchars), TypeMapping.mysql_eq]
    decide +kernel
  have hcatalog : Catalog.parts.Describes (.ofTable .parts) :=
    ⟨by decide +kernel, by decide +kernel, by decide +kernel, by decide +kernel⟩
  have hmapping : ({} : BuildSettings).mapping = .mysql := rfl
  exact ⟨hbuild, hcatalog, assemble_describes hmapping hbuild (by decide) hcatalog "shop"⟩

end SchemaDelta
