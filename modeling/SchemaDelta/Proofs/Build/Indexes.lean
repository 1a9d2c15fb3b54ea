import SchemaDelta.Proofs.Build.Naming
import SchemaDelta.Proofs.Build.Source
import SchemaDelta.Proofs.Parsing.Reader
import SchemaDelta.Proofs.Schema.Failure
import SchemaDelta.Proofs.Schema.Valid

/-!
# Names of indexes

Names that a statement gives to its indexes stay as they are, wherever they stand in it, and
the other indexes are named around them.  So no two indexes get the same name, and none of
them is refused for its name.
-/

namespace SchemaDelta

open Named Sql

/-- What an index is, however its columns are spelled. -/
def Index.outline (index : Index) : String × IndexKind × List String :=
  (index.name, index.kind, index.columns.map lowerCase)

namespace Build

variable {taken seen : List String} {clauses : List IndexDef} {named : List Index}
  {written : CreateTable} {mapping : TypeMapping}

/-! ## Naming one after another -/

/-- The index of a clause, under the name that the clause gives, or else under the first of
`c`, `c_2`, `c_3` and so on whose folded name is not taken, where `c` is its first column. -/
inductive NamesIndex (taken : List String) : IndexDef → Index → Prop
  | given (name : String) (kind : IndexKind) (columns : List String) :
      NamesIndex taken ⟨some name, kind, columns⟩ ⟨name, kind, columns⟩
  | generated (kind : IndexKind) (column : String) (columns : List String) {k : Nat}
      (hleast : IsLeast {k | lowerCase (indexNameCandidate column k) ∉ taken} k) :
      NamesIndex taken ⟨none, kind, column :: columns⟩
        ⟨indexNameCandidate column k, kind, column :: columns⟩

/-- The indexes are named in turn, and the name of each one is taken for those behind it. -/
inductive NamesInTurn : (taken : List String) → List IndexDef → List Index → Prop
  | nil (taken : List String) : NamesInTurn taken [] []
  | cons {taken : List String} {clause : IndexDef} {clauses : List IndexDef} {index : Index}
      {named : List Index} (hfirst : NamesIndex taken clause index)
      (hrest : NamesInTurn (key index :: taken) clauses named) :
      NamesInTurn taken (clause :: clauses) (index :: named)

theorem namesIndex_generated (hsame : ∀ name, name ∈ seen ↔ name ∈ taken) (kind : IndexKind)
    {columns : List String} (hne : columns ≠ []) :
    NamesIndex seen ⟨none, kind, columns⟩ ⟨freeIndexName taken columns, kind, columns⟩ := by
  obtain ⟨column, columns, rfl⟩ := List.exists_cons_of_ne_nil hne
  apply NamesIndex.generated
  simp only [hsame]
  exact (apart_indexNameCandidate column).firstFree_isLeast taken

/-- Names that the clauses give are among those that are taken from the beginning on. -/
theorem nameIndexes_namesInTurn (hsame : ∀ name, name ∈ seen ↔ name ∈ taken)
    (hgiven : ∀ clause ∈ clauses, ∀ name ∈ clause.name, lowerCase name ∈ taken)
    (hne : ∀ clause ∈ clauses, clause.columns ≠ []) :
    NamesInTurn seen clauses (nameIndexes taken clauses) := by
  induction clauses generalizing seen taken with
  | nil => exact .nil seen
  | cons clause clauses ih =>
      obtain ⟨name, kind, columns⟩ := clause
      have hrest : ∀ other ∈ clauses, other.columns ≠ [] := fun other hother =>
        hne other (List.mem_cons_of_mem _ hother)
      cases name with
      | some name =>
          have htaken : lowerCase name ∈ taken := hgiven _ List.mem_cons_self name rfl
          refine .cons (.given name kind columns)
            (ih (fun other => ?_) (fun other hother => ?_) hrest)
          · rw [List.mem_cons, hsame]
            exact or_iff_right_of_imp fun heq => heq ▸ htaken
          · exact hgiven other (List.mem_cons_of_mem _ hother)
      | none =>
          have hfirst := namesIndex_generated hsame kind (hne _ List.mem_cons_self)
          refine .cons hfirst (ih (fun other => ?_) (fun other hother given hname => ?_) hrest)
          · rw [List.mem_cons, List.mem_cons, hsame]
            rfl
          · exact List.mem_cons_of_mem _ (hgiven other (List.mem_cons_of_mem _ hother) given hname)

namespace NamesInTurn

theorem exists_of_mem (h : NamesInTurn taken clauses named) {index : Index}
    (hindex : index ∈ named) :
    ∃ clause ∈ clauses, ∃ before, taken ⊆ before ∧ NamesIndex before clause index := by
  induction h with
  | nil => cases hindex
  | @cons taken clause clauses first named hfirst hrest ih =>
      rcases List.mem_cons.mp hindex with rfl | hindex
      · exact ⟨clause, List.mem_cons_self, taken, List.Subset.refl taken, hfirst⟩
      · obtain ⟨other, hother, before, hsubset, hnames⟩ := ih hindex
        exact ⟨other, List.mem_cons_of_mem _ hother, before,
          List.subset_of_cons_subset hsubset, hnames⟩

/-- No generated name is taken. -/
theorem key_notMem (h : NamesInTurn taken clauses named) {index : Index} (hindex : index ∈ named) :
    key index ∉ taken ∨ index.name ∈ clauses.filterMap (·.name) := by
  obtain ⟨clause, hclause, before, hsubset, hnames⟩ := h.exists_of_mem hindex
  cases hnames with
  | given name kind columns => exact .inr (List.mem_filterMap.mpr ⟨_, hclause, rfl⟩)
  | generated kind column columns hleast => exact .inl fun hmem => hleast.1 (hsubset hmem)

/-- Names that are given differ from each other, and the generated ones from all others. -/
theorem distinct (h : NamesInTurn taken clauses named)
    (hgiven : ∀ name ∈ clauses.filterMap (·.name), lowerCase name ∈ taken)
    (hnodup : ((clauses.filterMap (·.name)).map lowerCase).Nodup) : Distinct named := by
  induction h with
  | nil => exact List.Pairwise.nil
  | @cons taken clause clauses index named hfirst hrest ih =>
      have hsubset : ∀ name ∈ clauses.filterMap (·.name),
          name ∈ (clause :: clauses).filterMap (·.name) := fun name hname =>
        (List.Sublist.filterMap _ (List.sublist_cons_self clause clauses)).mem hname
      have hnodup' : ((clauses.filterMap (·.name)).map lowerCase).Nodup :=
        hnodup.sublist
          ((List.Sublist.filterMap _ (List.sublist_cons_self clause clauses)).map lowerCase)
      refine distinct_cons.mpr ⟨lookup_eq_none_iff.mpr fun other hother hsame => ?_, ?_⟩
      · rcases hrest.key_notMem hother with hfree | hother
        · exact hfree (hsame ▸ List.mem_cons_self)
        · cases hfirst with
          | given name kind columns =>
              exact (List.nodup_cons.mp hnodup).1 (List.mem_map.mpr ⟨_, hother, hsame⟩)
          | generated kind column columns hleast =>
              have htaken : key other ∈ taken := hgiven _ (hsubset _ hother)
              rw [hsame] at htaken
              exact hleast.1 htaken
      · exact ih (fun name hname => List.mem_cons_of_mem _ (hgiven name (hsubset name hname)))
          hnodup'

theorem kind_ne_primary (h : NamesInTurn taken clauses named)
    (hclauses : ∀ clause ∈ clauses, clause.kind ≠ .primary) :
    ∀ index ∈ named, index.isPrimary = false := by
  intro index hindex
  obtain ⟨clause, hclause, before, -, hnames⟩ := h.exists_of_mem hindex
  have hkind := hclauses clause hclause
  cases hnames <;> simpa [Index.isPrimary] using hkind

end NamesInTurn

/-! ## What a statement is built in -/

/-- The table of a statement with its columns and its primary key. -/
def keyedTable (mapping : TypeMapping) (written : CreateTable) : Except SchemaError Table := do
  let columns := written.columns.map (column mapping)
  let table ← columns.foldlM Table.addColumn { name := written.name }
  addPrimaryKeys written table

/-- The table of a statement without its foreign keys. -/
def indexedTable (mapping : TypeMapping) (written : CreateTable) : Except SchemaError Table := do
  let keyed ← keyedTable mapping written
  (indexes written).foldlM Table.addIndex keyed

theorem table_eq_bind (mapping : TypeMapping) (written : CreateTable) :
    table mapping written = (do
      let indexed ← indexedTable mapping written
      (foreignKeys written).foldlM Table.addForeignKey indexed) := by
  unfold table indexedTable keyedTable
  dsimp only
  rw [bind_assoc, bind_assoc]

/-- The table has the columns of the statement, and no keys but a primary key. -/
structure Begun (written : CreateTable) (table : Table) : Prop where
  built : table.Built
  columns : table.columns.map (·.name) = written.columns.map (·.name)
  indexes : table.indexes = []
  foreignKeys : table.foreignKeys = []

theorem eq_of_foldlM_addColumn {columns : List Column} {table edited : Table}
    (h : columns.foldlM Table.addColumn table = .ok edited) :
    edited = { table with columns := table.columns ++ columns } := by
  induction columns generalizing table with
  | nil =>
      obtain rfl := Except.ok.inj h
      rw [List.append_nil]
  | cons column columns ih =>
      rw [List.foldlM_cons] at h
      obtain ⟨middle, hadd, hrest⟩ := bind_eq_ok_iff.mp h
      obtain ⟨-, -, rfl⟩ := Table.addColumn_eq_ok_iff.mp hadd
      rw [ih hrest, List.append_assoc]
      rfl

theorem Begun.setPrimaryKey {table edited : Table} (h : Begun written table)
    {columns : List String} (hok : table.setPrimaryKey columns = .ok edited) :
    Begun written edited := by
  have hbuilt := h.built.setPrimaryKey hok
  obtain ⟨-, resolved, -, rfl⟩ := Table.setPrimaryKey_eq_ok_iff.mp hok
  refine ⟨hbuilt, ?_, h.indexes, h.foreignKeys⟩
  rw [Table.requireValues_map_name, h.columns]

theorem begun_keyedTable {keyed : Table} (h : keyedTable mapping written = .ok keyed) :
    Begun written keyed := by
  obtain ⟨columned, hcolumns, hprimary⟩ := bind_eq_ok_iff.mp h
  have hbuilt : columned.Built :=
    foldlM_keeps (fun _ _ _ _ hb hadd => hb.addColumn hadd) (.new written.name) hcolumns
  have hcolumned : Begun written columned := by
    obtain rfl := eq_of_foldlM_addColumn hcolumns
    refine ⟨hbuilt, ?_, rfl, rfl⟩
    rw [List.nil_append, List.map_map]
    exact List.map_congr_left fun column _ => name_column mapping column
  obtain ⟨middle, hclauses, hinline⟩ := bind_eq_ok_iff.mp hprimary
  have hmiddle : Begun written middle :=
    foldlM_keeps (fun _ _ _ _ hb hset => hb.setPrimaryKey hset) hcolumned hclauses
  split at hinline
  next => exact hmiddle.setPrimaryKey hinline
  next =>
    obtain rfl := Except.ok.inj hinline
    exact hmiddle

theorem declares_of_columns {table : Table}
    (h : table.columns.map (·.name) = written.columns.map (·.name)) {names : List String}
    (hnames : ∀ name ∈ names, ∃ column ∈ written.columns, sameName column.name name = true) :
    table.Declares names := by
  refine Table.declares_iff.mpr fun name hname => ?_
  obtain ⟨column, hcolumn, hsame⟩ := hnames name hname
  have hmem : column.name ∈ table.columns.map (·.name) := by
    rw [h]
    exact List.mem_map_of_mem hcolumn
  obtain ⟨other, hother, heq⟩ := List.mem_map.mp hmem
  refine ⟨other, hother, ?_⟩
  rw [← sameName_iff.mp hsame, ← heq]
  rfl

/-- Columns and primary keys are refused for other reasons than names of keys. -/
theorem keyedTable_error_ne {error : SchemaError} (h : keyedTable mapping written = .error error)
    (name key : String) :
    error ≠ .duplicateIndex name key ∧ error ≠ .duplicateForeignKey name key := by
  have hprimary : ∀ {table : Table} {columns : List String},
      table.setPrimaryKey columns = .error error →
        error ≠ .duplicateIndex name key ∧ error ≠ .duplicateForeignKey name key := by
    intro table columns hset
    rcases Table.setPrimaryKey_eq_error hset with rfl | ⟨column, rfl⟩ <;> simp
  rcases bind_eq_error_iff.mp h with hcolumns | ⟨columned, -, hkeys⟩
  · obtain ⟨before, column, after, table, -, -, hadd⟩ := foldlM_eq_error_iff.mp hcolumns
    rcases Table.addColumn_eq_error hadd with rfl | rfl <;> simp
  · rcases bind_eq_error_iff.mp hkeys with hclauses | ⟨middle, -, hinline⟩
    · obtain ⟨before, columns, after, table, -, -, hset⟩ := foldlM_eq_error_iff.mp hclauses
      exact hprimary hset
    · split at hinline
      next => exact hprimary hinline
      next => cases hinline

/-! ## Adding the indexes -/

/-- Indexes of new names are all added, unless a column is missing. -/
theorem foldlM_addIndex_cases {table : Table} (hkind : ∀ index ∈ named, index.isPrimary = false)
    (hname : ∀ index ∈ named, key index ≠ Index.primaryKey) (hdistinct : Distinct named)
    (hfree : ∀ index ∈ named, lookup table.allIndexes (key index) = none) :
    (∃ list, named.foldlM Table.addIndex table = .ok { table with indexes := list } ∧
        (list.map Index.outline).Perm ((table.indexes ++ named).map Index.outline)) ∨
      ∃ index ∈ named, ∃ name ∈ index.columns, lookup table.columns (lowerCase name) = none ∧
        named.foldlM Table.addIndex table
          = .error (.unresolvedReference table.name (.index index.name) name) := by
  induction named generalizing table with
  | nil => exact .inl ⟨table.indexes, rfl, by simp⟩
  | cons index named ih =>
      have hsecondary := hkind index List.mem_cons_self
      have hunnamed := hfree index List.mem_cons_self
      obtain ⟨hnew, hrest⟩ := distinct_cons.mp hdistinct
      rw [List.foldlM_cons]
      cases hadd : table.addIndex index with
      | error error =>
          rcases Table.addIndex_eq_error hsecondary hadd with ⟨-, htaken⟩ | ⟨name, hmem, hnone, rfl⟩
          · exact absurd htaken (not_or.mpr ⟨not_not.mpr hunnamed, hname index List.mem_cons_self⟩)
          · exact .inr ⟨index, List.mem_cons_self, name, hmem, hnone, rfl⟩
      | ok edited =>
          obtain ⟨-, -, resolved, hresolve, rfl⟩ := (Table.addIndex_eq_ok_iff hsecondary).mp hadd
          have hperm := insert_perm { index with columns := resolved } table.indexes
          have hstill : ∀ other ∈ named, lookup ({ table with
              indexes := Named.insert { index with columns := resolved } table.indexes }
                : Table).allIndexes (key other) = none := by
            intro other hother
            have hold := lookup_eq_none_iff.mp (hfree other (List.mem_cons_of_mem _ hother))
            refine lookup_eq_none_iff.mpr fun found hfound => ?_
            rcases List.mem_append.mp hfound with hprimary | hfound
            · exact hold found (List.mem_append_left _ hprimary)
            · rcases List.mem_cons.mp (hperm.mem_iff.mp hfound) with rfl | hfound
              · exact fun hsame => lookup_eq_none_iff.mp hnew other hother hsame.symm
              · exact hold found (List.mem_append_right _ hfound)
          have houtline : Index.outline { index with columns := resolved } = index.outline := by
            rw [Index.outline, Index.outline, Table.sameNames_of_resolve hresolve]
          rcases ih (fun other hother => hkind other (List.mem_cons_of_mem _ hother))
              (fun other hother => hname other (List.mem_cons_of_mem _ hother)) hrest hstill with
            ⟨list, hfold, hlist⟩ | ⟨other, hother, name, hmem, hnone, hfold⟩
          · refine .inl ⟨list, hfold, hlist.trans ?_⟩
            rw [List.map_append, List.map_append, List.map_cons]
            refine ((hperm.map Index.outline).append_right _).trans ?_
            rw [List.map_cons, houtline]
            exact List.perm_middle.symm
          · exact .inr ⟨other, List.mem_cons_of_mem _ hother, name, hmem, hnone, hfold⟩

/-! ## Indexes of statements -/

/-- The indexes that a statement declares: those of its unique columns, and then those that
have clauses of their own. -/
def declaredIndexes (written : CreateTable) : List IndexDef :=
  inlineIndexes written ++ indexClauses written

def givenIndexNames (written : CreateTable) : List String :=
  (declaredIndexes written).filterMap (·.name)

/-- The folded names that no index is given by itself. -/
def reservedIndexNames (written : CreateTable) : List String :=
  (Index.primaryName :: givenIndexNames written).map lowerCase

theorem indexes_eq (written : CreateTable) :
    indexes written = nameIndexes (reservedIndexNames written) (declaredIndexes written) := rfl

theorem regular_declaredIndexes (h : (Statement.createTable written).Regular) :
    ∀ clause ∈ declaredIndexes written, clause.columns ≠ [] ∧ clause.kind ≠ .primary := by
  intro clause hclause
  rcases List.mem_append.mp hclause with hinline | hclause
  · obtain ⟨column, -, rfl⟩ := List.mem_map.mp hinline
    simp
  · have hregular := h (.index clause) (mem_definitions_of_picked
      (fun definition _ hsome => by cases definition <;> cases hsome; rfl) hclause)
    exact ⟨hregular.sound, hregular.secondary⟩

theorem indexes_namesInTurn (h : (Statement.createTable written).Regular) :
    NamesInTurn (reservedIndexNames written) (declaredIndexes written) (indexes written) := by
  rw [indexes_eq]
  refine nameIndexes_namesInTurn (fun _ => Iff.rfl) (fun clause hclause name hname => ?_)
    fun clause hclause => (regular_declaredIndexes h clause hclause).1
  refine List.mem_map_of_mem (List.mem_cons_of_mem _ ?_)
  exact List.mem_filterMap.mpr ⟨clause, hclause, hname⟩

/-- The indexes of a statement are added to its columns, unless one of them is missing. -/
theorem foldlM_indexes_cases (h : (Statement.createTable written).Regular)
    (hnodup : ((givenIndexNames written).map lowerCase).Nodup)
    (hprimary : ∀ name ∈ givenIndexNames written, sameName name Index.primaryName = false)
    {keyed : Table} (hkeyed : Begun written keyed) :
    (∃ list, (indexes written).foldlM Table.addIndex keyed = .ok { keyed with indexes := list } ∧
        (list.map Index.outline).Perm ((indexes written).map Index.outline)) ∨
      ∃ index ∈ indexes written, ∃ name ∈ index.columns,
        lookup keyed.columns (lowerCase name) = none ∧
          (indexes written).foldlM Table.addIndex keyed
            = .error (.unresolvedReference keyed.name (.index index.name) name) := by
  have hturn := indexes_namesInTurn h
  have hgiven : ∀ name ∈ givenIndexNames written, lowerCase name ∈ reservedIndexNames written :=
    fun name hname => List.mem_map_of_mem (List.mem_cons_of_mem _ hname)
  have hname : ∀ index ∈ indexes written, key index ≠ Index.primaryKey := by
    intro index hindex hsame
    rcases hturn.key_notMem hindex with hfree | hexplicit
    · exact hfree (hsame ▸ List.mem_map_of_mem List.mem_cons_self)
    · have hother : sameName index.name Index.primaryName = true := sameName_iff.mpr hsame
      rw [hprimary index.name hexplicit] at hother
      cases hother
  have hfree : ∀ index ∈ indexes written, lookup keyed.allIndexes (key index) = none := by
    intro index hindex
    rw [hkeyed.built.wellFormed.lookup_secondary (hname index hindex), hkeyed.indexes]
    rfl
  have hkind := hturn.kind_ne_primary fun clause hclause =>
    (regular_declaredIndexes h clause hclause).2
  have hcases := foldlM_addIndex_cases hkind hname (hturn.distinct hgiven hnodup) hfree
  rwa [hkeyed.indexes] at hcases

theorem table_ne_duplicateIndex (h : (Statement.createTable written).Regular)
    (hnodup : ((givenIndexNames written).map lowerCase).Nodup)
    (hprimary : ∀ name ∈ givenIndexNames written, sameName name Index.primaryName = false)
    (name index : String) : Build.table mapping written ≠ .error (.duplicateIndex name index) := by
  intro hbuild
  rw [table_eq_bind] at hbuild
  rcases bind_eq_error_iff.mp hbuild with hindexed | ⟨indexed, -, hforeignKeys⟩
  · rcases bind_eq_error_iff.mp hindexed with hkeyed | ⟨keyed, hkeyed, hindexes⟩
    · exact (keyedTable_error_ne hkeyed name index).1 rfl
    · rcases foldlM_indexes_cases h hnodup hprimary (begun_keyedTable hkeyed) with
        ⟨list, hok, -⟩ | ⟨_, -, _, -, -, hmissing⟩
      · rw [hok] at hindexes
        cases hindexes
      · rw [hmissing] at hindexes
        cases hindexes
  · obtain ⟨_, _, _, _, -, -, hadd⟩ := foldlM_eq_error_iff.mp hforeignKeys
    have herror := Table.addForeignKey_eq_error hadd
    simp at herror

/-- No foreign key changes the indexes. -/
theorem indexes_of_foldlM_addForeignKey {keys : List ForeignKey} {table built : Table}
    (h : keys.foldlM Table.addForeignKey table = .ok built) : built.indexes = table.indexes := by
  refine foldlM_keeps (P := fun other => other.indexes = table.indexes)
    (fun key _ before after hbefore hadd => ?_) rfl h
  obtain ⟨-, -, _, -, rfl⟩ := Table.addForeignKey_eq_ok_iff.mp hadd
  exact hbefore

theorem exists_indexedTable (h : (Statement.createTable written).Regular)
    (hnodup : ((givenIndexNames written).map lowerCase).Nodup)
    (hprimary : ∀ name ∈ givenIndexNames written, sameName name Index.primaryName = false)
    {keyed : Table} (hkeyed : keyedTable mapping written = .ok keyed)
    (hcolumns : ∀ index ∈ declaredIndexes written, ∀ name ∈ index.columns,
      ∃ column ∈ written.columns, sameName column.name name = true) :
    ∃ list, (list.map Index.outline).Perm ((indexes written).map Index.outline) ∧
      indexedTable mapping written = .ok { keyed with indexes := list } := by
  have hbegun := begun_keyedTable hkeyed
  rcases foldlM_indexes_cases h hnodup hprimary hbegun with
    ⟨list, hok, hperm⟩ | ⟨index, hindex, name, hname, hnone, -⟩
  · refine ⟨list, hperm, ?_⟩
    rw [indexedTable, hkeyed]
    exact hok
  · obtain ⟨clause, hclause, heq⟩ := mem_nameIndexes hindex
    have hdeclares := declares_of_columns hbegun.columns (hcolumns clause hclause)
    rw [heq] at hname
    exact absurd hnone (hdeclares name hname)

/-- Names that are given to indexes are kept, and the other indexes are named in turn around
them.  So no index is refused for its name, and if its columns exist, it is in the table. -/
theorem table_namesIndexes {source : String} {database : Option String}
    (hread : .ok (.createTable written) ∈ Script.statements source database)
    (hnodup : ((givenIndexNames written).map lowerCase).Nodup)
    (hprimary : ∀ name ∈ givenIndexNames written, sameName name Index.primaryName = false)
    (mapping : TypeMapping) :
    NamesInTurn (reservedIndexNames written) (declaredIndexes written) (indexes written) ∧
      (∀ name index, Build.table mapping written ≠ .error (.duplicateIndex name index)) ∧
        ∀ keyed, keyedTable mapping written = .ok keyed →
          (∀ index ∈ declaredIndexes written, ∀ name ∈ index.columns,
            ∃ column ∈ written.columns, sameName column.name name = true) →
              ∃ list, (list.map Index.outline).Perm ((indexes written).map Index.outline) ∧
                Build.table mapping written = (foreignKeys written).foldlM Table.addForeignKey
                  { keyed with indexes := list } ∧
                ∀ built, Build.table mapping written = .ok built → built.indexes = list := by
  have hregular := Script.regular_statements hread
  refine ⟨indexes_namesInTurn hregular, table_ne_duplicateIndex hregular hnodup hprimary,
    fun keyed hkeyed hcolumns => ?_⟩
  obtain ⟨list, hperm, hindexed⟩ :=
    exists_indexedTable hregular hnodup hprimary hkeyed hcolumns
  have hbuild : Build.table mapping written
      = (foreignKeys written).foldlM Table.addForeignKey { keyed with indexes := list } := by
    rw [table_eq_bind, hindexed]
    rfl
  refine ⟨list, hperm, hbuild, fun built hok => ?_⟩
  rw [hbuild] at hok
  exact indexes_of_foldlM_addForeignKey hok

end Build

/-- A statement in which one column is called like the primary key, and in which a name that
is given looks as if it were generated. -/
def Sql.CreateTable.crowded : CreateTable where
  name := "t"
  temporary := false
  ifNotExists := false
  definitions := [
    .column ⟨"a", ⟨"INT", .none⟩, [.unique], ⟨16, 28⟩⟩,
    .column ⟨"primary", ⟨"INT", .none⟩, [.unique], ⟨30, 50⟩⟩,
    .index ⟨none, .plain, ["A"]⟩,
    .index ⟨some "a_2", .plain, ["a"]⟩]
  span := ⟨0, 73⟩

def Table.crowded : Table where
  name := "t"
  columns := [
    { name := "a", kind := .integer, typeName := "integer" },
    { name := "primary", kind := .integer, typeName := "integer" }]

theorem Build.table_namesIndexes_crowded :
    .ok (.createTable .crowded) ∈ Script.statements
        "CREATE TABLE t (a INT UNIQUE, \x60primary\x60 INT UNIQUE, KEY (A), KEY a_2 (a))" none ∧
      ((givenIndexNames .crowded).map lowerCase).Nodup ∧
        (∀ name ∈ givenIndexNames .crowded, sameName name Index.primaryName = false) ∧
          (indexes .crowded).map (·.name) = ["a", "primary_2", "A_3", "a_2"] ∧
            NamesInTurn (reservedIndexNames .crowded) (declaredIndexes .crowded)
                (indexes .crowded) ∧
              ∃ list, (list.map Index.outline).Perm ((indexes .crowded).map Index.outline) ∧
                Build.table .mysql .crowded = .ok { Table.crowded with indexes := list } := by
  have hread : .ok (.createTable .crowded) ∈ Script.statements
      "CREATE TABLE t (a INT UNIQUE, \x60primary\x60 INT UNIQUE, KEY (A), KEY a_2 (a))" none := by
    rw [Script.statements_of_toList String.toList_ofList]
    decide +kernel
  have hnodup : ((givenIndexNames .crowded).map lowerCase).Nodup := by decide +kernel
  have hprimary : ∀ name ∈ givenIndexNames .crowded,
      sameName name Index.primaryName = false := by
    decide +kernel
  obtain ⟨hturn, -, hadded⟩ := table_namesIndexes hread hnodup hprimary .mysql
  have hkeyed : keyedTable .mysql .crowded = .ok .crowded := by
    rw [TypeMapping.mysql_eq]
    decide +kernel
  obtain ⟨list, hperm, hbuild, -⟩ := hadded .crowded hkeyed (by decide +kernel)
  exact ⟨hread, hnodup, hprimary, by decide +kernel, hturn, list, hperm, hbuild⟩

end SchemaDelta
