import SchemaDelta.Proofs.Edit.Session
import SchemaDelta.Proofs.Edit.Statements

/-!
# What differences leave of a table

What an edit makes of the columns of a table, and which keys it can move, shows in the edit
alone.  So a difference that can be applied to a table, whatever edits it is made of, leaves
everything as it is that it does not name.
-/

namespace SchemaDelta

open Named

/-! ## Lists of named things -/

namespace Named

variable {α : Type} [Named α] {p : α → Bool}

theorem filter_erase {name : String} (items : List α)
    (h : ∀ item, sameName (Named.name item) name = true → p item = false) :
    (erase name items).filter p = items.filter p := by
  unfold erase
  induction items with
  | nil => rfl
  | cons item items ih =>
      cases hname : sameName (Named.name item) name with
      | true => simp [hname, h item hname]
      | false => simp [hname, List.filter_cons, ih]

theorem filter_insert {item : α} (items : List α) (h : p item = false) :
    (insert item items).filter p = items.filter p := by
  unfold insert
  rw [List.filter_append, List.filter_cons_of_neg (by simp [h]), ← List.filter_append,
    List.takeWhile_append_dropWhile]

theorem contains_of_mem {items : List α} {item : α} {name : String} (hmem : item ∈ items)
    (h : sameName name (Named.name item) = true) : contains name items = true :=
  List.any_eq_true.mpr ⟨item, hmem, sameName_iff.mpr (sameName_iff.mp h).symm⟩

end Named

/-! ## What edits touch -/

/-- The column that stands in the place of a column after the change. -/
def Change.place (change : Change Column) (column : Column) : Column :=
  if sameName column.name change.old.name then change.new else column

/-- The name under which a table keeps an index that is added to it. -/
def Index.keptName (index : Index) : String :=
  if index.isPrimary then Index.primaryName else index.name

namespace TableEdit

/-- What the edit makes of the columns of a table.  Renaming an index is not looked at. -/
def onColumns : TableEdit → List Column → List Column
  | dropColumn name, columns => columns.filter fun column => !sameName column.name name
  | changeColumn change, columns => columns.map change.place
  | addColumn column, columns => columns ++ [column]
  | addIndex index, columns =>
      if index.isPrimary then Table.requireValues index.columns columns else columns
  | _, columns => columns

def touchesIndex : TableEdit → Index → Bool
  | dropIndex index, other => sameName other.name index.name
  | addIndex index, other => sameName other.name index.keptName
  | _, _ => false

def touchesForeignKey : TableEdit → ForeignKey → Bool
  | dropForeignKey name, other => sameName other.name name
  | addForeignKey key, other => sameName other.name key.name
  | _, _ => false

/-- All edits of a difference are of this kind. -/
def Elementary (edit : TableEdit) : Prop :=
  ∀ old new, edit ≠ .renameIndex old new

end TableEdit

namespace Table

variable {table edited : Table} {edit : TableEdit} {edits : List TableEdit}

/-! ## One edit -/

theorem requireValues_congr {names others : List String}
    (h : names.map lowerCase = others.map lowerCase) (columns : List Column) :
    requireValues names columns = requireValues others columns := by
  have hany : ∀ column : Column,
      names.any (sameName column.name) = others.any (sameName column.name) := by
    intro column
    have hfolded : ∀ list : List String, list.any (sameName column.name)
        = (list.map lowerCase).any (lowerCase column.name == ·) := by
      intro list
      rw [List.any_map]
      rfl
    rw [hfolded, hfolded, h]
  unfold requireValues
  simp only [hany]

/-- Around a column, the columns of a table have other names. -/
theorem sameName_of_split {front back : List Column} {old : Column} (h : Distinct table.columns)
    (hsplit : table.columns = front ++ old :: back) {name : String}
    (hold : key old = lowerCase name) :
    sameName old.name name = true ∧
      (∀ column ∈ front, sameName column.name name = false) ∧
      ∀ column ∈ back, sameName column.name name = false := by
  rw [hsplit] at h
  have hother : ∀ column ∈ front ++ back, sameName column.name name = false := by
    intro column hcolumn
    have hfree := (distinct_cons.mp (h.perm List.perm_middle)).1
    have hne := lookup_eq_none_iff.mp hfree column hcolumn
    exact Bool.eq_false_iff.mpr fun hsame => hne ((sameName_iff.mp hsame).trans hold.symm)
  exact ⟨sameName_iff.mpr hold,
    fun column hcolumn => hother column (List.mem_append_left _ hcolumn),
    fun column hcolumn => hother column (List.mem_append_right _ hcolumn)⟩

theorem columns_of_edit (h : table.Valid) (hedit : edit.Elementary)
    (hok : table.edit edit = .ok edited) : edited.columns = edit.onColumns table.columns := by
  cases edit with
  | dropForeignKey name => rw [removeForeignKey_eq hok]; rfl
  | dropIndex index => rcases removeIndex_cases hok with ⟨-, rfl⟩ | ⟨-, rfl⟩ <;> rfl
  | dropColumn name =>
      obtain ⟨front, old, back, hsplit, hold, -, rfl⟩ := removeColumn_split hok
      obtain ⟨hself, hfront, hback⟩ := sameName_of_split h.columns hsplit hold
      have hkept : ∀ columns : List Column,
          (∀ column ∈ columns, sameName column.name name = false) →
          columns.filter (fun column => !sameName column.name name) = columns :=
        fun columns hother => List.filter_eq_self.mpr (by simpa using hother)
      simp only [TableEdit.onColumns, hsplit, List.filter_append, List.filter_cons, hself,
        hkept front hfront, hkept back hback]
      rfl
  | changeColumn change =>
      obtain ⟨front, old, back, hsplit, hold, -, -, -, rfl⟩ := replaceColumn_split hok
      obtain ⟨hself, hfront, hback⟩ := sameName_of_split h.columns hsplit hold
      have hkept : ∀ columns : List Column,
          (∀ column ∈ columns, sameName column.name change.old.name = false) →
          columns.map change.place = columns := by
        intro columns hother
        conv_rhs => rw [← List.map_id columns]
        exact List.map_congr_left fun column hcolumn => by
          simp [Change.place, hother column hcolumn]
      simp only [TableEdit.onColumns, hsplit, List.map_append, List.map_cons, hkept front hfront,
        hkept back hback]
      simp [Change.place, hself]
  | addColumn column =>
      obtain ⟨-, -, rfl⟩ := addColumn_eq_ok_iff.mp hok
      rfl
  | addIndex index =>
      by_cases hkind : index.isPrimary = true
      · obtain ⟨-, resolved, hresolve, rfl⟩ := setPrimaryKey_eq_ok_iff.mp
          ((addIndex_primary hkind).symm.trans hok)
        simp only [TableEdit.onColumns, hkind, if_true]
        exact requireValues_congr (sameNames_of_resolve hresolve).symm table.columns
      · obtain ⟨-, -, resolved, -, rfl⟩ := (addIndex_eq_ok_iff (by simpa using hkind)).mp hok
        simp [TableEdit.onColumns, hkind]
  | renameIndex old new => exact absurd rfl (hedit old new)
  | addForeignKey foreignKey =>
      obtain ⟨-, -, resolved, -, rfl⟩ := addForeignKey_eq_ok_iff.mp hok
      rfl

theorem filter_allIndexes_of_edit (h : table.Valid) (hedit : edit.Elementary)
    (hok : table.edit edit = .ok edited) {p : Index → Bool}
    (hp : ∀ index, edit.touchesIndex index = true → p index = false) :
    edited.allIndexes.filter p = table.allIndexes.filter p := by
  cases edit with
  | dropForeignKey name => rw [removeForeignKey_eq hok]; rfl
  | dropIndex index =>
      rcases removeIndex_cases hok with ⟨hname, rfl⟩ | ⟨-, rfl⟩
      · have hprimary : table.primaryKey.toList.filter p = [] := by
          rw [List.filter_eq_nil_iff]
          intro other hother
          have hsame := (h.key_primary (Option.mem_toList.mp hother)).trans hname.symm
          simp [hp other (sameName_iff.mpr hsame)]
        simp [allIndexes, hprimary]
      · simp only [allIndexes, List.filter_append]
        rw [filter_erase _ hp]
  | dropColumn name =>
      obtain ⟨_, _, _, -, -, -, rfl⟩ := removeColumn_split hok
      rfl
  | changeColumn change =>
      obtain ⟨_, _, _, -, -, -, -, -, rfl⟩ := replaceColumn_split hok
      rfl
  | addColumn column =>
      obtain ⟨-, -, rfl⟩ := addColumn_eq_ok_iff.mp hok
      rfl
  | addIndex index =>
      by_cases hkind : index.isPrimary = true
      · obtain ⟨hnone, resolved, -, rfl⟩ := setPrimaryKey_eq_ok_iff.mp
          ((addIndex_primary hkind).symm.trans hok)
        have hprimary : p (.primary resolved) = false :=
          hp _ (by simp [TableEdit.touchesIndex, Index.keptName, hkind, Index.primary, sameName])
        simp [allIndexes, hnone, hprimary]
      · obtain ⟨-, -, resolved, -, rfl⟩ := (addIndex_eq_ok_iff (by simpa using hkind)).mp hok
        have hindex : p { index with columns := resolved } = false :=
          hp _ (by simp [TableEdit.touchesIndex, Index.keptName, hkind, sameName])
        simp only [allIndexes, List.filter_append]
        rw [filter_insert _ hindex]
  | renameIndex old new => exact absurd rfl (hedit old new)
  | addForeignKey foreignKey =>
      obtain ⟨-, -, resolved, -, rfl⟩ := addForeignKey_eq_ok_iff.mp hok
      rfl

theorem filter_foreignKeys_of_edit (hedit : edit.Elementary)
    (hok : table.edit edit = .ok edited) {p : ForeignKey → Bool}
    (hp : ∀ foreignKey, edit.touchesForeignKey foreignKey = true → p foreignKey = false) :
    edited.foreignKeys.filter p = table.foreignKeys.filter p := by
  cases edit with
  | dropForeignKey name =>
      rw [removeForeignKey_eq hok]
      exact filter_erase _ hp
  | dropIndex index => rcases removeIndex_cases hok with ⟨-, rfl⟩ | ⟨-, rfl⟩ <;> rfl
  | dropColumn name =>
      obtain ⟨_, _, _, -, -, -, rfl⟩ := removeColumn_split hok
      rfl
  | changeColumn change =>
      obtain ⟨_, _, _, -, -, -, -, -, rfl⟩ := replaceColumn_split hok
      rfl
  | addColumn column =>
      obtain ⟨-, -, rfl⟩ := addColumn_eq_ok_iff.mp hok
      rfl
  | addIndex index =>
      by_cases hkind : index.isPrimary = true
      · obtain ⟨-, resolved, -, rfl⟩ := setPrimaryKey_eq_ok_iff.mp
          ((addIndex_primary hkind).symm.trans hok)
        rfl
      · obtain ⟨-, -, resolved, -, rfl⟩ := (addIndex_eq_ok_iff (by simpa using hkind)).mp hok
        rfl
  | renameIndex old new => exact absurd rfl (hedit old new)
  | addForeignKey foreignKey =>
      obtain ⟨-, -, resolved, -, rfl⟩ := addForeignKey_eq_ok_iff.mp hok
      exact filter_insert _ (hp _ (by simp [TableEdit.touchesForeignKey, sameName]))

/-! ## Runs -/

theorem Reaches.columns_eq (hreaches : table.Reaches edits edited) (h : table.Valid)
    (hedits : ∀ edit ∈ edits, edit.Elementary) :
    edited.columns = edits.foldl (fun columns edit => edit.onColumns columns) table.columns := by
  induction edits generalizing table with
  | nil =>
      obtain rfl : table = edited := congrArg Prod.fst hreaches
      rfl
  | cons edit edits ih =>
      obtain ⟨middle, hfirst, hrest⟩ := hreaches.of_cons
      rw [List.foldl_cons, ← columns_of_edit h (hedits edit List.mem_cons_self) hfirst]
      exact ih hrest (h.edit hfirst) fun other hother =>
        hedits other (List.mem_cons_of_mem _ hother)

theorem Reaches.filter_allIndexes (hreaches : table.Reaches edits edited) (h : table.Valid)
    (hedits : ∀ edit ∈ edits, edit.Elementary) {p : Index → Bool}
    (hp : ∀ edit ∈ edits, ∀ index, edit.touchesIndex index = true → p index = false) :
    edited.allIndexes.filter p = table.allIndexes.filter p :=
  (hreaches.keeps (P := fun other => other.Valid ∧
      other.allIndexes.filter p = table.allIndexes.filter p) ⟨h, rfl⟩
    fun edit hmem _ _ hbefore hok => ⟨hbefore.1.edit hok,
      (filter_allIndexes_of_edit hbefore.1 (hedits edit hmem) hok (hp edit hmem)).trans
        hbefore.2⟩).2

theorem Reaches.filter_foreignKeys (hreaches : table.Reaches edits edited)
    (hedits : ∀ edit ∈ edits, edit.Elementary) {p : ForeignKey → Bool}
    (hp : ∀ edit ∈ edits, ∀ key, edit.touchesForeignKey key = true → p key = false) :
    edited.foreignKeys.filter p = table.foreignKeys.filter p :=
  hreaches.keeps (P := fun other => other.foreignKeys.filter p = table.foreignKeys.filter p) rfl
    fun edit hmem _ _ hbefore hok =>
      (filter_foreignKeys_of_edit (hedits edit hmem) hok (hp edit hmem)).trans hbefore

end Table

/-! ## Differences of tables -/

namespace TableDiff

/-- The names of the columns that are to become a primary key. -/
def primaryColumns (diff : TableDiff) : List String :=
  (diff.indexes.created.filter (·.isPrimary)).flatMap (·.columns)

/-- The columns to write over others, in the order in which this is done. -/
def columnChanges (diff : TableDiff) : List (Change Column) :=
  diff.columns.changed ++ diff.columns.renamed

/-- The column that stands in the place of an old one in the end. -/
def replacement (diff : TableDiff) (column : Column) : Column :=
  diff.columnChanges.foldl (fun column change => change.place column) column

/-- The columns that the difference makes of those of a table. -/
def columnsFrom (diff : TableDiff) (columns : List Column) : List Column :=
  Table.requireValues diff.primaryColumns
    ((columns.filter fun column => !contains column.name diff.columns.removed).map diff.replacement
      ++ diff.columns.added)

def namesColumn (diff : TableDiff) (name : String) : Bool :=
  contains name diff.columns.removed || contains name diff.columns.added ||
    diff.columnChanges.any fun change =>
      sameName change.old.name name || sameName change.new.name name

def namesIndex (diff : TableDiff) (name : String) : Bool :=
  contains name diff.indexes.dropped ||
    diff.indexes.created.any fun index => sameName index.keptName name

def namesForeignKey (diff : TableDiff) (name : String) : Bool :=
  contains name diff.foreignKeys.dropped || contains name diff.foreignKeys.created

/-- The column as it is when the difference does not name it: NOT NULL if it is in a primary
key that the difference creates, and otherwise as before. -/
def spared (diff : TableDiff) (column : Column) : Column :=
  if diff.primaryColumns.any (sameName column.name) then { column with nullable := false } else column

/-- The columns are the old ones in their order, with others in the place of some and more
behind them, and what the difference does not name is as before. -/
structure Frames (diff : TableDiff) (table edited : Table) : Prop where
  name : edited.name = diff.newName.getD table.name
  columns : edited.columns = diff.columnsFrom table.columns
  column : ∀ name, diff.namesColumn name = false →
    edited.column? name = (table.column? name).map diff.spared
  indexes : edited.allIndexes.filter (fun index => !diff.namesIndex index.name)
    = table.allIndexes.filter fun index => !diff.namesIndex index.name
  foreignKeys : edited.foreignKeys.filter (fun key => !diff.namesForeignKey key.name)
    = table.foreignKeys.filter fun key => !diff.namesForeignKey key.name

variable {diff : TableDiff} {table edited : Table}

theorem exists_reaches_of_applyTo (hok : diff.applyTo table = (edited, none)) :
    ∃ last, table.Reaches diff.edits last ∧
      edited = { last with name := diff.newName.getD last.name } := by
  unfold applyTo at hok
  split at hok
  next last heq => exact ⟨last, heq, (congrArg Prod.fst hok).symm⟩
  next failed hfailed => exact absurd hok (hfailed edited)

/-- The edits of a difference, each with what it is made for. -/
theorem mem_edits_iff {edit : TableEdit} : edit ∈ diff.edits ↔
    (∃ key ∈ diff.foreignKeys.dropped, edit = .dropForeignKey key.name) ∨
    (∃ index ∈ diff.indexes.dropped, edit = .dropIndex index) ∨
    (∃ column ∈ diff.columns.removed, edit = .dropColumn column.name) ∨
    (∃ change ∈ diff.columnChanges, edit = .changeColumn change) ∨
    (∃ column ∈ diff.columns.added, edit = .addColumn column) ∨
    (∃ index ∈ diff.indexes.created, edit = .addIndex index) ∨
    ∃ key ∈ diff.foreignKeys.created, edit = .addForeignKey key := by
  unfold edits columnChanges
  simp only [List.mem_append, List.mem_map, or_assoc, eq_comm]

theorem elementary_of_mem_edits {edit : TableEdit} (h : edit ∈ diff.edits) : edit.Elementary := by
  rintro old new rfl
  simp [mem_edits_iff] at h

/-! ## The columns behind a difference -/

theorem foldl_filter_removed (removed columns : List Column) :
    removed.foldl (fun columns old => columns.filter fun column => !sameName column.name old.name)
        columns
      = columns.filter fun column => !contains column.name removed := by
  induction removed generalizing columns with
  | nil => simp [contains]
  | cons old removed ih =>
      rw [List.foldl_cons, ih, List.filter_filter]
      refine List.filter_congr fun column _ => ?_
      simp only [contains, List.any_cons, Bool.not_or]
      rw [Bool.and_comm]
      congr 2
      exact Bool.eq_iff_iff.mpr (by rw [sameName_iff, sameName_iff, eq_comm]; rfl)

theorem foldl_map_place (changes : List (Change Column)) (columns : List Column) :
    changes.foldl (fun columns change => columns.map change.place) columns
      = columns.map fun column =>
          changes.foldl (fun column change => change.place column) column := by
  induction changes generalizing columns with
  | nil => simp
  | cons change changes ih =>
      rw [List.foldl_cons, ih, List.map_map]
      rfl

theorem requireValues_append (names others : List String) (columns : List Column) :
    Table.requireValues (names ++ others) columns
      = Table.requireValues others (Table.requireValues names columns) := by
  unfold Table.requireValues
  rw [List.map_map]
  refine List.map_congr_left fun column _ => ?_
  rw [List.any_append, Function.comp_apply]
  cases hnames : names.any (sameName column.name) with
  | true =>
      simp only [Bool.true_or, if_true]
      split <;> rfl
  | false => simp only [Bool.false_or, Bool.false_eq_true, if_false]

theorem foldl_requireValues (created : List Index) (columns : List Column) :
    created.foldl (fun columns index =>
        if index.isPrimary then Table.requireValues index.columns columns else columns) columns
      = Table.requireValues ((created.filter (·.isPrimary)).flatMap (·.columns)) columns := by
  induction created generalizing columns with
  | nil => simp [Table.requireValues]
  | cons index created ih =>
      rw [List.foldl_cons, ih]
      cases hkind : index.isPrimary with
      | true => simp [hkind, requireValues_append]
      | false => simp [hkind]

/-- What the edits make of columns, one after the other, the difference says at once. -/
theorem foldl_onColumns_edits (diff : TableDiff) (columns : List Column) :
    diff.edits.foldl (fun columns edit => edit.onColumns columns) columns
      = diff.columnsFrom columns := by
  unfold edits
  simp only [List.foldl_append, List.foldl_map, TableEdit.onColumns, List.foldl_fixed]
  rw [← List.foldl_append, foldl_filter_removed, foldl_map_place, List.foldl_append_eq_append,
    ← List.flatMap_def, List.flatMap_singleton', foldl_requireValues]
  rfl

/-! ## Columns that are not named -/

theorem key_spared (column : Column) : key (diff.spared column) = key column := by
  unfold spared
  split <;> rfl

/-- A column whose name is not that of a change comes from a column of this name alone, and
is the same one. -/
theorem foldl_place_of_unnamed {changes : List (Change Column)} {name : String}
    (h : ∀ change ∈ changes, key change.old ≠ name ∧ key change.new ≠ name) (column : Column) :
    (key (changes.foldl (fun column change => change.place column) column) = name →
        key column = name) ∧
      (key column = name →
        changes.foldl (fun column change => change.place column) column = column) := by
  induction changes generalizing column with
  | nil => exact ⟨id, fun _ => rfl⟩
  | cons change changes ih =>
      obtain ⟨hold, hnew⟩ := h change List.mem_cons_self
      obtain ⟨hback, hstays⟩ := ih (fun other hother => h other (List.mem_cons_of_mem _ hother))
        (change.place column)
      rw [List.foldl_cons]
      by_cases hplaced : sameName column.name change.old.name = true
      · have hplace : change.place column = change.new := by simp [Change.place, hplaced]
        have hkey : key column = key change.old := sameName_iff.mp hplaced
        rw [hplace] at hback ⊢
        exact ⟨fun hname => absurd (hback hname) hnew, fun hname => absurd (hkey ▸ hname) hold⟩
      · have hplace : change.place column = column := by simp [Change.place, hplaced]
        rw [hplace] at hback hstays ⊢
        exact ⟨hback, hstays⟩

theorem of_namesColumn {name : String} (h : diff.namesColumn name = false) :
    contains name diff.columns.removed = false ∧ contains name diff.columns.added = false ∧
      ∀ change ∈ diff.columnChanges,
        key change.old ≠ lowerCase name ∧ key change.new ≠ lowerCase name := by
  rw [namesColumn, Bool.or_eq_false_iff, Bool.or_eq_false_iff, List.any_eq_false] at h
  obtain ⟨⟨hremoved, hadded⟩, hchanges⟩ := h
  refine ⟨hremoved, hadded, fun change hchange => ?_⟩
  have hnames := hchanges change hchange
  simp only [Bool.or_eq_true, sameName_iff, not_or] at hnames
  exact hnames

/-- Columns may go and be replaced around a name. -/
theorem lookup_map_filter {columns : List Column} {keep : Column → Bool} {f : Column → Column}
    {k : String} (hkeep : ∀ column, key column = k → keep column = true)
    (hback : ∀ column, key (f column) = k → key column = k)
    (hstays : ∀ column, key column = k → f column = column) :
    lookup ((columns.filter keep).map f) k = lookup columns k := by
  have htest : (fun column => decide (keep column = true ∧ (key (f column) == k) = true))
      = fun column : Column => key column == k := by
    funext column
    by_cases hname : key column = k
    · simp [hkeep column hname, hstays column hname, hname]
    · have hother : key (f column) ≠ k := fun hsame => hname (hback column hsame)
      rw [beq_false_of_ne hname, beq_false_of_ne hother]
      simp
  unfold lookup
  rw [List.find?_map, List.find?_filter]
  change (columns.find? fun column =>
    decide (keep column = true ∧ (key (f column) == k) = true)).map f = _
  rw [htest]
  cases hfound : columns.find? fun column => key column == k with
  | none => rfl
  | some column =>
      have hname : key column = k := by simpa using List.find?_some hfound
      rw [Option.map_some, hstays column hname]

theorem lookup_columnsFrom {name : String} (h : diff.namesColumn name = false)
    (columns : List Column) :
    lookup (diff.columnsFrom columns) (lowerCase name)
      = (lookup columns (lowerCase name)).map diff.spared := by
  obtain ⟨hremoved, hadded, hchanges⟩ := of_namesColumn h
  have hfree : lookup diff.columns.added (lowerCase name) = none := by
    rwa [contains_eq_isSome, Option.isSome_eq_false_iff, Option.isNone_iff_eq_none] at hadded
  have hkept : lookup ((columns.filter fun column =>
      !contains column.name diff.columns.removed).map diff.replacement) (lowerCase name)
        = lookup columns (lowerCase name) := by
    refine lookup_map_filter (fun column hname => ?_)
      (fun column => (foldl_place_of_unnamed hchanges column).1)
      fun column => (foldl_place_of_unnamed hchanges column).2
    have hsame : lowerCase column.name = lowerCase name := hname
    rw [contains_eq_isSome] at hremoved ⊢
    rw [hsame, hremoved]
    rfl
  unfold columnsFrom Table.requireValues
  change lookup (List.map diff.spared _) _ = _
  rw [lookup_map key_spared, lookup_append, hfree, Option.or_none, hkept]

/-! ## What is named -/

theorem namesIndex_of_touches {edit : TableEdit} (hmem : edit ∈ diff.edits) {index : Index}
    (h : edit.touchesIndex index = true) : diff.namesIndex index.name = true := by
  rw [namesIndex, Bool.or_eq_true]
  rcases mem_edits_iff.mp hmem with ⟨_, _, rfl⟩ | ⟨other, hother, rfl⟩ | ⟨_, _, rfl⟩ | ⟨_, _, rfl⟩ |
    ⟨_, _, rfl⟩ | ⟨other, hother, rfl⟩ | ⟨_, _, rfl⟩
  case inr.inl => exact .inl (contains_of_mem hother h)
  case inr.inr.inr.inr.inr.inl =>
    exact .inr (List.any_eq_true.mpr ⟨other, hother, sameName_iff.mpr (sameName_iff.mp h).symm⟩)
  all_goals cases h

theorem namesForeignKey_of_touches {edit : TableEdit} (hmem : edit ∈ diff.edits)
    {foreignKey : ForeignKey} (h : edit.touchesForeignKey foreignKey = true) :
    diff.namesForeignKey foreignKey.name = true := by
  rw [namesForeignKey, Bool.or_eq_true]
  rcases mem_edits_iff.mp hmem with ⟨other, hother, rfl⟩ | ⟨_, _, rfl⟩ | ⟨_, _, rfl⟩ | ⟨_, _, rfl⟩ |
    ⟨_, _, rfl⟩ | ⟨_, _, rfl⟩ | ⟨other, hother, rfl⟩
  case inl => exact .inl (contains_of_mem hother h)
  case inr.inr.inr.inr.inr.inr => exact .inr (contains_of_mem hother h)
  all_goals cases h

theorem frames_of_applyTo (h : table.Valid) (hok : diff.applyTo table = (edited, none)) :
    diff.Frames table edited := by
  obtain ⟨last, hreaches, rfl⟩ := exists_reaches_of_applyTo hok
  have helementary : ∀ edit ∈ diff.edits, edit.Elementary := fun _ => elementary_of_mem_edits
  have hcolumns : last.columns = diff.columnsFrom table.columns :=
    (hreaches.columns_eq h helementary).trans (diff.foldl_onColumns_edits table.columns)
  constructor
  case name => rw [hreaches.name]
  case columns => exact hcolumns
  case column =>
    intro name hname
    change lookup last.columns (lowerCase name) = _
    rw [hcolumns]
    exact lookup_columnsFrom hname table.columns
  case indexes =>
    refine hreaches.filter_allIndexes h helementary fun edit hmem index htouches => ?_
    rw [namesIndex_of_touches hmem htouches]
    rfl
  case foreignKeys =>
    refine hreaches.filter_foreignKeys helementary fun edit hmem foreignKey htouches => ?_
    rw [namesForeignKey_of_touches hmem htouches]
    rfl

end TableDiff

end SchemaDelta
