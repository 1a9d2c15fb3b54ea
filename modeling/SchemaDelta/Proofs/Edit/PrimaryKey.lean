import Mathlib.Data.List.Induction
import SchemaDelta.Proofs.Edit.Session

/-!
# The columns of the primary key

Setting the primary key makes its columns NOT NULL, and no key can be set while
there is another.  A difference may replace a column of the key by any other of
its name, though, and nothing looks at the key then: a key that stays may so be
left with a column that is NULL.  That is the only way.
-/

namespace SchemaDelta

open Named

/-- Whether the columns that the primary key names are NOT NULL. -/
def Table.PrimaryRequired (table : Table) : Prop :=
  ∀ index ∈ table.primaryKey, ∀ name ∈ index.columns, ∀ column ∈ table.columns,
    key column = lowerCase name → column.nullable = false

namespace TableDiff

/-- The columns that are written over others, in order. -/
def replacements (diff : TableDiff) : List Column :=
  (diff.columns.changed ++ diff.columns.renamed).map (·.new)

/-- Whether the primary key goes away, or of the columns that are written over
its columns, the last one of each name is NOT NULL. -/
def SparesPrimary (diff : TableDiff) (table : Table) : Prop :=
  (∃ index ∈ diff.indexes.dropped, key index = Index.primaryKey) ∨
    ∀ index ∈ table.primaryKey, ∀ name ∈ index.columns, ∀ column,
      lookup diff.replacements.reverse (lowerCase name) = some column → column.nullable = false

end TableDiff

namespace Table

variable {table edited : Table}

theorem primaryRequired_of_none (h : table.primaryKey = none) : table.PrimaryRequired := by
  intro index hindex
  rw [h] at hindex
  cases hindex

theorem primaryRequired_congr (hprimary : edited.primaryKey = table.primaryKey)
    (hcolumns : edited.columns = table.columns) :
    edited.PrimaryRequired ↔ table.PrimaryRequired := by
  unfold PrimaryRequired
  rw [hprimary, hcolumns]

theorem primaryRequired_iff_lookup (h : Distinct table.columns) :
    table.PrimaryRequired ↔
      ∀ index ∈ table.primaryKey, ∀ name ∈ index.columns, ∀ column,
        lookup table.columns (lowerCase name) = some column → column.nullable = false := by
  refine forall₂_congr fun index _ => forall₂_congr fun name _ => forall_congr' fun column => ?_
  rw [lookup_eq_some_iff h, and_imp]

/-- A name that the primary key has belongs to a column that is in use. -/
theorem mem_keyColumns_of_primary {index : Index} (hindex : index ∈ table.primaryKey)
    {name : String} (hname : name ∈ index.columns) : name ∈ table.keyColumns :=
  mem_keyColumns.mpr (.inl ⟨index, List.mem_append_left _ (Option.mem_toList.mpr hindex), hname⟩)

/-! ## Single operations -/

theorem primaryRequired_addColumn (h : table.Valid) {column : Column}
    (hok : table.addColumn column = .ok edited) :
    edited.PrimaryRequired ↔ table.PrimaryRequired := by
  obtain ⟨hfree, _, rfl⟩ := addColumn_eq_ok_iff.mp hok
  refine forall₂_congr fun index hindex => forall₂_congr fun name hname => ?_
  constructor
  · intro hrequired other hother
    exact hrequired other (List.mem_append_left _ hother)
  · intro hrequired other hother hkey
    rcases List.mem_append.mp hother with hother | hother
    · exact hrequired other hother hkey
    · -- the key has an older column of that name
      rw [List.mem_singleton.mp hother] at hkey
      rw [hkey] at hfree
      exact absurd hfree (h.declared name (mem_keyColumns_of_primary hindex hname))

theorem primaryRequired_setPrimaryKey {columns : List String}
    (hok : table.setPrimaryKey columns = .ok edited) : edited.PrimaryRequired := by
  obtain ⟨_, resolved, _, rfl⟩ := setPrimaryKey_eq_ok_iff.mp hok
  intro index hindex name hname column hcolumn hkey
  obtain rfl := Option.some.inj hindex
  obtain ⟨other, _, rfl⟩ := List.mem_map.mp hcolumn
  split
  next => rfl
  next hnot =>
    refine absurd (List.any_eq_true.mpr ⟨name, hname, ?_⟩) hnot
    rw [if_neg hnot] at hkey
    exact sameName_iff.mpr hkey

/-- An index that is added is either the primary key or no matter. -/
theorem primaryRequired_addIndex {index : Index}
    (hok : table.addIndex index = .ok edited) :
    edited.PrimaryRequired ↔ table.PrimaryRequired := by
  cases hkind : index.isPrimary with
  | true =>
      rw [addIndex_primary hkind] at hok
      obtain ⟨hnone, _⟩ := setPrimaryKey_eq_ok_iff.mp hok
      exact iff_of_true (primaryRequired_setPrimaryKey hok) (primaryRequired_of_none hnone)
  | false =>
      obtain ⟨_, _, resolved, _, rfl⟩ := (addIndex_eq_ok_iff hkind).mp hok
      exact primaryRequired_congr rfl rfl

theorem primaryRequired_addForeignKey {foreignKey : ForeignKey}
    (hok : table.addForeignKey foreignKey = .ok edited) :
    edited.PrimaryRequired ↔ table.PrimaryRequired := by
  obtain ⟨_, _, resolved, _, rfl⟩ := addForeignKey_eq_ok_iff.mp hok
  exact primaryRequired_congr rfl rfl

/-- A column of the primary key is written over by one of its own name only. -/
theorem lookup_replaceColumn (h : table.Valid) {name : String} {column : Column}
    (hok : table.replaceColumn name column = .ok edited) {used : String}
    (hused : used ∈ table.keyColumns) :
    lookup edited.columns (lowerCase used) =
      (lookup [column] (lowerCase used)).or (lookup table.columns (lowerCase used)) := by
  obtain ⟨front, old, back, hsplit, _, hplace, hfree, _, rfl⟩ := replaceColumn_split hok
  have hdistinct := h.columns
  rw [hsplit] at hdistinct
  have hnew : key column = key old ∨ lookup (front ++ old :: back) (key column) = none := by
    refine or_iff_not_imp_left.mpr fun hne => ?_
    rw [lookup_eq_none_iff] at hfree ⊢
    intro other hother
    rcases List.mem_cons.mp (List.perm_middle.mem_iff.mp hother) with rfl | hother
    · exact Ne.symm hne
    · exact hfree other hother
  obtain ⟨_, hlookup⟩ := lookup_replace hdistinct hnew
  rw [hlookup, hsplit, lookup_cons]
  by_cases hkey : lowerCase used = key column
  · rw [hkey, Function.update_self, Function.update_self, Option.some_or]
  · have hold : lowerCase used ≠ key old := by
      rcases hplace with hsame | hunused
      · exact hsame ▸ hkey
      · exact hunused used hused
    rw [Function.update_of_ne hkey, Function.update_of_ne hkey, Function.update_of_ne hold,
      lookup_nil, Option.none_or]

theorem primaryRequired_removeColumn {name : String} (hok : table.removeColumn name = .ok edited) :
    edited.PrimaryRequired ↔ table.PrimaryRequired := by
  obtain ⟨front, old, back, hsplit, _, hunused, rfl⟩ := removeColumn_split hok
  refine forall₂_congr fun index hindex => forall₂_congr fun name hname => ?_
  constructor
  · intro hrequired column hcolumn hkey
    rw [hsplit] at hcolumn
    rcases List.mem_cons.mp (List.perm_middle.mem_iff.mp hcolumn) with rfl | hcolumn
    · exact absurd hkey.symm (hunused name (mem_keyColumns_of_primary hindex hname))
    · exact hrequired column hcolumn hkey
  · intro hrequired column hcolumn
    refine hrequired column ?_
    rw [hsplit]
    exact List.perm_middle.mem_iff.mpr (List.mem_cons_of_mem _ hcolumn)

/-! ## Edits -/

/-- The edits that neither touch the columns of the primary key nor drop it. -/
inductive Harmless : TableEdit → Prop
  | dropForeignKey (name : String) : Harmless (.dropForeignKey name)
  | dropIndex (index : Index) (hname : key index ≠ Index.primaryKey) : Harmless (.dropIndex index)
  | dropColumn (name : String) : Harmless (.dropColumn name)
  | addColumn (column : Column) : Harmless (.addColumn column)
  | addIndex (index : Index) : Harmless (.addIndex index)
  | addForeignKey (foreignKey : ForeignKey) : Harmless (.addForeignKey foreignKey)

theorem Harmless.primaryRequired_iff {edit : TableEdit} (hedit : Harmless edit) (h : table.Valid)
    (hok : table.edit edit = .ok edited) : edited.PrimaryRequired ↔ table.PrimaryRequired := by
  cases hedit with
  | dropForeignKey name =>
      obtain rfl := removeForeignKey_eq hok
      exact primaryRequired_congr rfl rfl
  | dropIndex index hname =>
      rcases removeIndex_cases hok with ⟨heq, _⟩ | ⟨_, rfl⟩
      · exact absurd heq hname
      · exact primaryRequired_congr rfl rfl
  | dropColumn name => exact primaryRequired_removeColumn hok
  | addColumn column => exact primaryRequired_addColumn h hok
  | addIndex index => exact primaryRequired_addIndex hok
  | addForeignKey foreignKey => exact primaryRequired_addForeignKey hok

theorem Reaches.primaryRequired_iff {edits : List TableEdit} (hreaches : table.Reaches edits edited)
    (h : table.Valid) (hedits : ∀ edit ∈ edits, Harmless edit) :
    edited.PrimaryRequired ↔ table.PrimaryRequired :=
  (hreaches.keeps (P := fun other =>
      other.Valid ∧ (other.PrimaryRequired ↔ table.PrimaryRequired)) ⟨h, Iff.rfl⟩
    fun edit hmem _ _ hbefore hok => ⟨hbefore.1.edit hok,
      ((hedits edit hmem).primaryRequired_iff hbefore.1 hok).trans hbefore.2⟩).2

/-- The edits that set no primary key. -/
inductive SetsNoKey : TableEdit → Prop
  | dropForeignKey (name : String) : SetsNoKey (.dropForeignKey name)
  | dropIndex (index : Index) : SetsNoKey (.dropIndex index)
  | dropColumn (name : String) : SetsNoKey (.dropColumn name)
  | changeColumn (change : Change Column) : SetsNoKey (.changeColumn change)

/-- Only by its name does the primary key go away. -/
theorem SetsNoKey.primaryKey {edit : TableEdit} (hedit : SetsNoKey edit)
    (hok : table.edit edit = .ok edited) :
    edited.primaryKey = table.primaryKey ∧
        (∀ index, edit = .dropIndex index → key index ≠ Index.primaryKey) ∨
      edited.primaryKey = none ∧ ∃ index, edit = .dropIndex index ∧ key index = Index.primaryKey := by
  cases hedit with
  | dropForeignKey name =>
      obtain rfl := removeForeignKey_eq hok
      exact .inl ⟨rfl, by simp⟩
  | dropIndex index =>
      rcases removeIndex_cases hok with ⟨heq, rfl⟩ | ⟨hne, rfl⟩
      · exact .inr ⟨rfl, index, rfl, heq⟩
      · refine .inl ⟨rfl, fun other hother => ?_⟩
        obtain rfl := TableEdit.dropIndex.inj hother
        exact hne
  | dropColumn name =>
      obtain ⟨_, _, _, _, _, _, rfl⟩ := removeColumn_split hok
      exact .inl ⟨rfl, by simp⟩
  | changeColumn change =>
      obtain ⟨_, _, _, _, _, _, _, _, rfl⟩ := replaceColumn_split hok
      exact .inl ⟨rfl, by simp⟩

/-- The primary key is gone behind an edit that drops it. -/
theorem Reaches.primaryKey_eq_none {edits : List TableEdit} (hreaches : table.Reaches edits edited)
    (hedits : ∀ edit ∈ edits, SetsNoKey edit) {index : Index} (hmem : .dropIndex index ∈ edits)
    (hname : key index = Index.primaryKey) : edited.primaryKey = none := by
  obtain ⟨front, back, rfl⟩ := List.append_of_mem hmem
  obtain ⟨before, _, hrest⟩ := hreaches.of_append
  obtain ⟨middle, hdrop, hback⟩ := hrest.of_cons
  have hmiddle : middle.primaryKey = none := by
    rcases (hedits _ hmem).primaryKey hdrop with ⟨_, hother⟩ | ⟨hnone, _⟩
    · exact absurd hname (hother index rfl)
    · exact hnone
  refine hback.keeps (P := fun other => other.primaryKey = none) hmiddle
    fun edit hedit other next hother hok => ?_
  rcases (hedits edit (by simp [hedit])).primaryKey hok with ⟨hsame, _⟩ | ⟨hnone, _⟩
  · exact hsame.trans hother
  · exact hnone

theorem Reaches.primaryKey_eq {edits : List TableEdit} (hreaches : table.Reaches edits edited)
    (hedits : ∀ edit ∈ edits, SetsNoKey edit ∧ Harmless edit) :
    edited.primaryKey = table.primaryKey := by
  refine hreaches.keeps (P := fun other => other.primaryKey = table.primaryKey) rfl
    fun edit hedit other next hother hok => ?_
  obtain ⟨hsets, hharmless⟩ := hedits edit hedit
  rcases hsets.primaryKey hok with ⟨hsame, _⟩ | ⟨_, index, rfl, hname⟩
  · exact hsame.trans hother
  · cases hharmless with
    | dropIndex _ hne => exact absurd hname hne

/-- Of the columns that are written over a column of a key, the last one counts. -/
theorem Reaches.lookup_changes {changes : List (Change Column)}
    (hreaches : table.Reaches (changes.map .changeColumn) edited) (h : table.Valid) :
    edited.primaryKey = table.primaryKey ∧ ∀ used ∈ table.keyColumns,
      lookup edited.columns (lowerCase used) =
        (lookup (changes.map (·.new)).reverse (lowerCase used)).or
          (lookup table.columns (lowerCase used)) := by
  induction changes generalizing table with
  | nil =>
      obtain rfl : table = edited := congrArg Prod.fst hreaches
      exact ⟨rfl, fun _ _ => rfl⟩
  | cons change changes ih =>
      obtain ⟨middle, hfirst, hrest⟩ := hreaches.of_cons
      obtain ⟨hprimary, hlookup⟩ := ih hrest (h.edit hfirst)
      have hframe : middle = { table with columns := middle.columns } := by
        obtain ⟨_, _, _, _, _, _, _, _, rfl⟩ := replaceColumn_split hfirst
        rfl
      rw [hframe] at hprimary hlookup
      refine ⟨hprimary, fun used hused => ?_⟩
      rw [hlookup used hused, lookup_replaceColumn h hfirst hused, List.map_cons,
        List.reverse_cons, lookup_append, Option.or_assoc]

theorem Reaches.primaryRequired_changes {changes : List (Change Column)}
    (hreaches : table.Reaches (changes.map .changeColumn) edited) (h : table.Valid)
    (hrequired : table.PrimaryRequired) :
    edited.PrimaryRequired ↔ ∀ index ∈ table.primaryKey, ∀ name ∈ index.columns, ∀ column,
      lookup (changes.map (·.new)).reverse (lowerCase name) = some column →
        column.nullable = false := by
  obtain ⟨hprimary, hlookup⟩ := hreaches.lookup_changes h
  have hvalid : edited.Valid := hreaches.keeps h fun _ _ _ _ hbefore hok => hbefore.edit hok
  rw [primaryRequired_iff_lookup h.columns] at hrequired
  rw [primaryRequired_iff_lookup hvalid.columns, hprimary]
  refine forall₂_congr fun index hindex => forall₂_congr fun name hname => ?_
  rw [hlookup name (mem_keyColumns_of_primary hindex hname)]
  cases lookup (changes.map (·.new)).reverse (lowerCase name) with
  | some column => simp
  | none => simpa using hrequired index hindex name hname

/-! ## Differences -/

/-- A difference that can be applied leaves the columns of the primary key
NOT NULL exactly if it spares them. -/
theorem primaryRequired_applyTo_iff (h : table.Valid) (hrequired : table.PrimaryRequired)
    {diff : TableDiff} (hok : diff.applyTo table = (edited, none)) :
    edited.PrimaryRequired ↔ diff.SparesPrimary table := by
  obtain ⟨last, hreaches, hlast⟩ : ∃ last, table.Reaches diff.edits last ∧
      (edited.PrimaryRequired ↔ last.PrimaryRequired) := by
    unfold TableDiff.applyTo at hok
    split at hok
    next last heq =>
      refine ⟨last, heq, ?_⟩
      obtain rfl := congrArg Prod.fst hok
      exact primaryRequired_congr rfl rfl
    next failed hfailed => exact absurd hok (hfailed edited)
  unfold TableDiff.edits at hreaches
  obtain ⟨_, hreaches, hforeignKeys⟩ := hreaches.of_append
  obtain ⟨_, hreaches, hindexes⟩ := hreaches.of_append
  obtain ⟨written, hreaches, hcolumns⟩ := hreaches.of_append
  obtain ⟨reduced, hdrops, hchanges⟩ := hreaches.of_append
  have hreduced : reduced.Valid := hdrops.keeps h fun _ _ _ _ hbefore hok => hbefore.edit hok
  have hwritten : written.Valid :=
    hchanges.keeps hreduced fun _ _ _ _ hbefore hok => hbefore.edit hok
  have hrest : last.PrimaryRequired ↔ written.PrimaryRequired := by
    refine ((hcolumns.append hindexes).append hforeignKeys).primaryRequired_iff hwritten ?_
    simp only [List.mem_append, List.mem_map]
    rintro edit ((⟨column, _, rfl⟩ | ⟨index, _, rfl⟩) | ⟨foreignKey, _, rfl⟩)
    · exact .addColumn column
    · exact .addIndex index
    · exact .addForeignKey foreignKey
  rw [hlast, hrest]
  by_cases hdropped : ∃ index ∈ diff.indexes.dropped, key index = Index.primaryKey
  · refine iff_of_true (primaryRequired_of_none ?_) (.inl hdropped)
    obtain ⟨index, hindex, hname⟩ := hdropped
    refine (hdrops.append hchanges).primaryKey_eq_none ?_
      (by simp [hindex] : TableEdit.dropIndex index ∈ _) hname
    simp only [List.mem_append, List.mem_map]
    rintro edit (((⟨foreignKey, _, rfl⟩ | ⟨other, _, rfl⟩) | ⟨column, _, rfl⟩) | ⟨change, _, rfl⟩)
    · exact .dropForeignKey foreignKey.name
    · exact .dropIndex other
    · exact .dropColumn column.name
    · exact .changeColumn change
  · rw [TableDiff.SparesPrimary, or_iff_right hdropped]
    have hharmless : ∀ edit ∈ diff.foreignKeys.dropped.map (TableEdit.dropForeignKey ·.name) ++
        diff.indexes.dropped.map .dropIndex ++ diff.columns.removed.map (.dropColumn ·.name),
        SetsNoKey edit ∧ Harmless edit := by
      simp only [List.mem_append, List.mem_map]
      rintro edit ((⟨foreignKey, _, rfl⟩ | ⟨other, hother, rfl⟩) | ⟨column, _, rfl⟩)
      · exact ⟨.dropForeignKey _, .dropForeignKey _⟩
      · exact ⟨.dropIndex other, .dropIndex other fun hname => hdropped ⟨other, hother, hname⟩⟩
      · exact ⟨.dropColumn _, .dropColumn _⟩
    have hkept := hdrops.primaryRequired_iff h fun edit hedit => (hharmless edit hedit).2
    rw [hchanges.primaryRequired_changes hreduced (hkept.mpr hrequired),
      hdrops.primaryKey_eq hharmless]
    rfl

/-! ## Sessions -/

/-- Whether something holds of every difference among the calls and the table
that it is applied to. -/
def Throughout (holds : TableDiff → Table → Prop) (table : Table) (calls : List TableCall) : Prop :=
  ∀ front diff back, calls = front ++ .apply diff :: back → holds diff (table.after front)

/-- Whether the difference can be applied to the table. -/
def Applies (diff : TableDiff) (table : Table) : Prop :=
  (diff.applyTo table).2 = none

instance (diff : TableDiff) (table : Table) : Decidable (Applies diff table) :=
  inferInstanceAs (Decidable (_ = _))

theorem throughout_nil (holds : TableDiff → Table → Prop) : Throughout holds table [] := by
  intro front diff back hcalls
  simp at hcalls

theorem throughout_cons {holds : TableDiff → Table → Prop} {first : TableCall}
    {calls : List TableCall} (hfirst : ∀ diff, first = .apply diff → holds diff table)
    (hrest : Throughout holds (table.call first).1 calls) :
    Throughout holds table (first :: calls) := by
  intro front diff back hcalls
  cases front with
  | nil => exact hfirst diff (List.cons.inj hcalls).1
  | cons other front =>
      obtain ⟨rfl, htail⟩ := List.cons.inj hcalls
      exact hrest front diff back htail

/-- A call that adds something keeps the columns of the primary key NOT NULL. -/
theorem PrimaryRequired.call (hrequired : table.PrimaryRequired) (h : table.Valid)
    {call : TableCall} (hadds : ∀ diff, call ≠ .apply diff) :
    (table.call call).1.PrimaryRequired := by
  cases call with
  | addColumn column =>
      exact settle_keeps hrequired fun _ hok => (primaryRequired_addColumn h hok).mpr hrequired
  | setPrimaryKey columns =>
      exact settle_keeps hrequired fun _ hok => primaryRequired_setPrimaryKey hok
  | addIndex index =>
      exact settle_keeps hrequired fun _ hok => (primaryRequired_addIndex hok).mpr hrequired
  | addForeignKey foreignKey =>
      exact settle_keeps hrequired fun _ hok => (primaryRequired_addForeignKey hok).mpr hrequired
  | apply diff => exact absurd rfl (hadds diff)

theorem primaryRequired_apply_iff (h : table.Valid) (hrequired : table.PrimaryRequired)
    {diff : TableDiff} (happlies : Applies diff table) :
    (table.call (.apply diff)).1.PrimaryRequired ↔ diff.SparesPrimary table :=
  primaryRequired_applyTo_iff h hrequired (Prod.ext rfl happlies)

/-- The columns of the primary key are NOT NULL throughout a session exactly if
every difference that is applied in it spares them. -/
theorem session_primaryRequired_iff (name : String) {calls : List TableCall}
    (happlies : Throughout Applies { name } calls) :
    (∀ front, front <+: calls → (after { name } front).PrimaryRequired) ↔
      Throughout TableDiff.SparesPrimary { name } calls := by
  have hvalid (front : List TableCall) : (after { name } front).Valid :=
    (Valid.new name).after front
  constructor
  · rintro hrequired front diff back rfl
    have hbefore := hrequired front (List.prefix_append _ _)
    have hafter := hrequired (front ++ [.apply diff]) (by simp)
    rw [after_append] at hafter
    exact (primaryRequired_apply_iff (hvalid front) hbefore (happlies front diff back rfl)).mp hafter
  · intro hspares front
    induction front using List.reverseRecOn with
    | nil => exact fun _ => primaryRequired_of_none rfl
    | append_singleton front call ih =>
        rintro ⟨back, rfl⟩
        have hbefore := ih ⟨call :: back, by simp⟩
        rw [after_append]
        by_cases happly : ∃ diff, call = .apply diff
        · obtain ⟨diff, rfl⟩ := happly
          have hsplit : front ++ [TableCall.apply diff] ++ back = front ++ .apply diff :: back := by
            simp
          exact (primaryRequired_apply_iff (hvalid front) hbefore (happlies front diff back hsplit)).mpr
            (hspares front diff back hsplit)
        · exact hbefore.call (hvalid front) (not_exists.mp happly)

end Table

def Column.ofType (name typeName : String) (nullable : Bool) : Column :=
  { name, kind := .integer, typeName, nullable }

/-- Puts a column in the place of one that is NOT NULL. -/
def TableDiff.replacingKey (column : Column) : TableDiff where
  name := "t"
  columns := { changed := [⟨.ofType "id" "integer" false, column⟩] }

/-- Calls that make a table with a primary key of one column, and put another
column in its place. -/
def TableCall.replacingKey (column : Column) : List TableCall :=
  [.addColumn (.ofType "id" "integer" true), .setPrimaryKey ["id"], .apply (.replacingKey column)]

theorem Table.throughout_replacingKey {holds : TableDiff → Table → Prop} {column : Column}
    (h : holds (.replacingKey column)
      (Table.after { name := "t" } ((TableCall.replacingKey column).take 2))) :
    Throughout holds { name := "t" } (TableCall.replacingKey column) := by
  refine throughout_cons (by simp) (throughout_cons (by simp) (throughout_cons ?_
    (throughout_nil holds)))
  intro diff hdiff
  obtain rfl := TableCall.apply.inj hdiff
  exact h

theorem session_primaryRequired_iff_widened :
    Table.Throughout Table.Applies { name := "t" }
        (TableCall.replacingKey (.ofType "id" "bigint" false)) ∧
      ((∀ front, front <+: TableCall.replacingKey (.ofType "id" "bigint" false) →
          (Table.after { name := "t" } front).PrimaryRequired) ↔
        Table.Throughout TableDiff.SparesPrimary { name := "t" }
          (TableCall.replacingKey (.ofType "id" "bigint" false))) := by
  have happlies : Table.Throughout Table.Applies { name := "t" }
      (TableCall.replacingKey (.ofType "id" "bigint" false)) :=
    Table.throughout_replacingKey (by decide)
  exact ⟨happlies, Table.session_primaryRequired_iff "t" happlies⟩

/-- A difference that makes the column of the primary key NULL can be applied. -/
theorem session_leaves_key_nullable :
    Table.Throughout Table.Applies { name := "t" }
        (TableCall.replacingKey (.ofType "id" "integer" true)) ∧
      Table.after { name := "t" } (TableCall.replacingKey (.ofType "id" "integer" true)) =
        { name := "t", columns := [.ofType "id" "integer" true],
          primaryKey := some (.primary ["id"]) } ∧
      ¬(Table.after { name := "t" }
        (TableCall.replacingKey (.ofType "id" "integer" true))).PrimaryRequired := by
  have hafter : Table.after { name := "t" }
      (TableCall.replacingKey (.ofType "id" "integer" true)) =
        { name := "t", columns := [.ofType "id" "integer" true],
          primaryKey := some (.primary ["id"]) } := by
    decide
  refine ⟨Table.throughout_replacingKey (by decide), hafter, fun hrequired => ?_⟩
  rw [hafter] at hrequired
  have hnullable := hrequired (.primary ["id"]) rfl "id" List.mem_cons_self
    (.ofType "id" "integer" true) List.mem_cons_self rfl
  cases hnullable

end SchemaDelta
