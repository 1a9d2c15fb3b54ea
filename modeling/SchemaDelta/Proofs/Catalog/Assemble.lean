import Mathlib.Data.List.Nodup
import SchemaDelta.Proofs.Build.Schema
import SchemaDelta.Proofs.Catalog.Rows
import SchemaDelta.Proofs.Catalog.Table
import SchemaDelta.Proofs.Edit.Apply

/-!
# Schemas from the rows that describe them

Every row of a column, and every group of rows of a key, makes one edit of one table.  So
what becomes of a table depends on its own rows alone, and the rows that describe a schema
lead to a schema without a difference to it.
-/

namespace SchemaDelta

open Named

namespace Catalog

/-! ## Steps -/

abbrev Step : Type :=
  State → Except CatalogError State

/-- The step makes an edit of the table with the name, if there is one. -/
def Makes (step : Step) (placed : String × TableEdit) : Prop :=
  ∃ diagnostics, ∀ state, step state = state.update placed.1 fun table => do
    return (← (table.edit placed.2).mapError .schema, diagnostics)

def editsAt (name : String) (edits : List (String × TableEdit)) : List TableEdit :=
  (edits.filter (·.1 == name)).map (·.2)

theorem editsAt_cons_self (name : String) (edit : TableEdit) (edits : List (String × TableEdit)) :
    editsAt name ((name, edit) :: edits) = edit :: editsAt name edits := by
  simp [editsAt]

theorem editsAt_cons_of_ne {name other : String} (h : other ≠ name) (edit : TableEdit)
    (edits : List (String × TableEdit)) :
    editsAt name ((other, edit) :: edits) = editsAt name edits := by
  simp [editsAt, h]

theorem editsAt_append (name : String) (first second : List (String × TableEdit)) :
    editsAt name (first ++ second) = editsAt name first ++ editsAt name second := by
  simp [editsAt]

theorem Makes.step_of_none {step : Step} {placed : String × TableEdit} (h : Makes step placed)
    {state : State} (hnone : state.tables.get? placed.1 = none) : step state = .ok state := by
  obtain ⟨diagnostics, hstep⟩ := h
  rw [hstep, State.update, hnone]

theorem Makes.step_of_edit {step : Step} {placed : String × TableEdit} (h : Makes step placed)
    {state : State} {table edited : Table} (hsome : state.tables.get? placed.1 = some table)
    (hedit : table.edit placed.2 = .ok edited) :
    ∃ next, step state = .ok next ∧
      next.tables.get? = Function.update state.tables.get? placed.1 (some edited) := by
  obtain ⟨diagnostics, hstep⟩ := h
  refine ⟨⟨state.tables.insert placed.1 edited, state.diagnostics ++ diagnostics⟩, ?_,
    SortedMap.get?_insert _ _ _⟩
  rw [hstep, State.update, hsome]
  dsimp only
  rw [hedit]
  rfl

/-- What becomes of a table depends on its own edits alone. -/
theorem exists_run {steps : List Step} {edits : List (String × TableEdit)}
    (h : List.Forall₂ Makes steps edits) (state : State) (target : String → Table)
    (htarget : ∀ name table, state.tables.get? name = some table →
      table.Reaches (editsAt name edits) (target name)) :
    ∃ final, steps.foldlM (fun state step => step state) state = .ok final ∧
      ∀ name, final.tables.get? name = (state.tables.get? name).map fun _ => target name := by
  induction h generalizing state with
  | nil =>
      refine ⟨state, rfl, fun name => ?_⟩
      cases hget : state.tables.get? name with
      | none => rfl
      | some table => exact congrArg some (congrArg Prod.fst (htarget name table hget))
  | @cons step placed steps edits hmakes _ ih =>
      obtain ⟨place, edit⟩ := placed
      cases hget : state.tables.get? place with
      | none =>
          rw [List.foldlM_cons, hmakes.step_of_none hget]
          refine ih state fun name table hname => ?_
          have hne : place ≠ name := by
            rintro rfl
            rw [hget] at hname
            cases hname
          have hreaches := htarget name table hname
          rwa [editsAt_cons_of_ne hne] at hreaches
      | some table =>
          have hplace := htarget place table hget
          rw [editsAt_cons_self] at hplace
          obtain ⟨edited, hedit, hrest⟩ := hplace.of_cons
          obtain ⟨next, hstep, hnext⟩ := hmakes.step_of_edit hget hedit
          have htarget' : ∀ name other, next.tables.get? name = some other →
              other.Reaches (editsAt name edits) (target name) := by
            intro name other hname
            by_cases hne : place = name
            · subst hne
              rw [hnext, Function.update_self, Option.some.injEq] at hname
              exact hname ▸ hrest
            · rw [hnext, Function.update_of_ne (Ne.symm hne)] at hname
              have hreaches := htarget name other hname
              rwa [editsAt_cons_of_ne hne] at hreaches
          obtain ⟨final, hfold, hfinal⟩ := ih next htarget'
          refine ⟨final, ?_, fun name => ?_⟩
          · rw [List.foldlM_cons, hstep]
            exact hfold
          · rw [hfinal, hnext]
            by_cases hne : place = name
            · subst hne
              rw [Function.update_self, hget]
              rfl
            · rw [Function.update_of_ne (Ne.symm hne)]

/-! ## The edits that a schema is put together with -/

/-- Edits of several tables, each with the name of its table. -/
def placedEdits (edits : Table → List TableEdit) (tables : List Table) :
    List (String × TableEdit) :=
  tables.flatMap fun table => (edits table).map (table.name, ·)

theorem nodup_names {tables : List Table} (h : Distinct tables) : (tables.map (·.name)).Nodup := by
  refine List.Nodup.of_map lowerCase ?_
  rw [List.map_map]
  exact distinct_iff_nodup.mp h

theorem editsAt_perm {edits : Table → List TableEdit} {tables : List Table}
    (hdistinct : Distinct tables) {placed : List (String × TableEdit)}
    (hplaced : placed.Perm (placedEdits edits tables)) {table : Table} (htable : table ∈ tables) :
    (editsAt table.name placed).Perm (edits table) := by
  have hown : (placedEdits edits tables).filter (·.1 == table.name)
      = (edits table).map (table.name, ·) :=
    filter_flatMap_of_nodup (nodup_names hdistinct) (by
      intro other _ entry hentry
      obtain ⟨edit, -, rfl⟩ := List.mem_map.mp hentry
      rfl) htable
  have hperm := (hplaced.filter (·.1 == table.name)).map (·.2)
  rw [hown, List.map_map] at hperm
  simpa [editsAt, Function.comp_def] using hperm

theorem forall₂_flatMap {ι α β : Type} {R : α → β → Prop} {f : ι → List α} {g : ι → List β}
    {list : List ι} (h : ∀ i ∈ list, List.Forall₂ R (f i) (g i)) :
    List.Forall₂ R (list.flatMap f) (list.flatMap g) := by
  induction list with
  | nil => exact .nil
  | cons i list ih =>
      exact List.rel_append (h i (by simp)) (ih fun j hj => h j (by simp [hj]))

/-- Items of tables, in any order, that make one edit each. -/
theorem exists_placed {ι α : Type} (step : ι → Step) (edit : Table → α → TableEdit)
    {items : Table → List α} {item : Table → α → ι} {tables : List Table} {list : List ι}
    (hperm : list.Perm (tables.flatMap fun table => (items table).map (item table)))
    (hmakes : ∀ table ∈ tables, ∀ a ∈ items table,
      Makes (step (item table a)) (table.name, edit table a)) :
    ∃ placed, List.Forall₂ Makes (list.map step) placed ∧
      placed.Perm (placedEdits (fun table => (items table).map (edit table)) tables) := by
  refine List.perm_comp_forall₂ (hperm.map step) ?_
  rw [List.map_flatMap, placedEdits]
  refine forall₂_flatMap fun table htable => ?_
  rw [List.map_map, List.map_map, List.forall₂_map_left_iff, List.forall₂_map_right_iff,
    List.forall₂_same]
  exact hmakes table htable

/-! ## Rows of columns and keys -/

theorem makes_addColumn (table : Table) {column : Column} (h : column.Restorable) :
    Makes (fun state => addColumn .mysql state (column.row table.name))
      (table.name, .addColumn (table.readColumn column)) := by
  obtain ⟨written, hwritten, hbuilt, -⟩ := Column.exists_columnDef_row table.name h
  refine ⟨Build.columnDiagnostics .mysql table.name written, fun state => ?_⟩
  unfold addColumn
  rw [hwritten]
  change (state.update table.name fun table => do
    return (← (table.addColumn (Build.column .mysql written)).mapError .schema, _)) = _
  rw [hbuilt]
  rfl

theorem makes_addIndex (table : String) {index : Index} (hname : index.WellNamed)
    (hne : index.columns ≠ []) :
    Makes (fun state => addIndex state ((table, index.name), index.rows table))
      (table, .addIndex index) := by
  have hcolumns := index.map_column_rows table
  have hkind := Index.indexKind_row table hname
  obtain ⟨first, rest, hrows⟩ := List.exists_cons_of_ne_nil (Index.rows_ne_nil table hne)
  rw [hrows] at hcolumns hkind
  refine ⟨[], fun state => ?_⟩
  simp only [addIndex, hrows, hcolumns, hkind first (by simp)]
  rfl

theorem makes_addForeignKey (table : String) {key : ForeignKey} (hne : key.columns ≠ [])
    (hreferenced : key.referencedColumns ≠ [])
    (harity : key.columns.length = key.referencedColumns.length) :
    Makes (fun state => addForeignKey state ((table, key.name), key.rows table))
      (table, .addForeignKey key) := by
  have hcolumns := ForeignKey.map_column_rows table harity
  have hothers := ForeignKey.map_referencedColumn_rows table harity
  have hrule := key.rule_row table
  obtain ⟨first, rest, hrows⟩ :=
    List.exists_cons_of_ne_nil (ForeignKey.rows_ne_nil table hne hreferenced)
  rw [hrows] at hcolumns hothers hrule
  obtain ⟨htable, hupdate, hdelete⟩ := hrule first (by simp)
  refine ⟨[], fun state => ?_⟩
  simp only [addForeignKey, hrows, hcolumns, hothers, htable, hupdate, hdelete]
  rfl

/-! ## Groups of rows -/

/-- The rows of named items of tables, group by group. -/
def entriesOf {α β : Type} [Named α] (items : Table → List α) (rows : String → α → List β)
    (tables : List Table) : List ((String × String) × List β) :=
  tables.flatMap fun table =>
    (items table).map fun item => ((table.name, Named.name item), rows table.name item)

theorem entriesOf_rows {α β : Type} [Named α] (items : Table → List α) (rows : String → α → List β)
    (tables : List Table) :
    (entriesOf items rows tables).flatMap (·.2)
      = tables.flatMap fun table => (items table).flatMap (rows table.name) := by
  simp [entriesOf, List.flatMap_assoc, List.flatMap_map]

theorem grouped_entriesOf {α β : Type} [Named α] {items : Table → List α}
    {rows : String → α → List β} {tables : List Table} {group : β → String × String}
    {position : β → Int} (htables : Distinct tables)
    (hitems : ∀ table ∈ tables, Distinct (items table))
    (hgroup : ∀ table item, ∀ row ∈ rows table item, group row = (table, Named.name item))
    (hne : ∀ table ∈ tables, ∀ item ∈ items table, rows table.name item ≠ [])
    (hascending : ∀ table item, (rows table item).Pairwise fun a b => position a < position b) :
    Grouped group position (entriesOf items rows tables) := by
  have hmem : ∀ entry ∈ entriesOf items rows tables, ∃ table ∈ tables, ∃ item ∈ items table,
      ((table.name, Named.name item), rows table.name item) = entry := by
    intro entry hentry
    obtain ⟨table, htable, hentry⟩ := List.mem_flatMap.mp hentry
    obtain ⟨item, hitem, rfl⟩ := List.mem_map.mp hentry
    exact ⟨table, htable, item, hitem, rfl⟩
  constructor
  · unfold entriesOf
    rw [List.map_flatMap, List.nodup_flatMap]
    constructor
    · intro table htable
      rw [List.map_map]
      refine List.Nodup.of_map (lowerCase ·.2) ?_
      rw [List.map_map]
      exact distinct_iff_nodup.mp (hitems table htable)
    · refine (List.pairwise_map.mp (nodup_names htables)).imp fun {first second} hne => ?_
      simp only [Function.onFun, List.disjoint_left, List.map_map, List.mem_map]
      rintro _ ⟨item, -, rfl⟩ ⟨other, -, heq⟩
      exact hne (congrArg Prod.fst heq).symm
  · intro entry hentry
    obtain ⟨table, -, item, -, rfl⟩ := hmem entry hentry
    exact hgroup table.name item
  · intro entry hentry
    obtain ⟨table, htable, item, hitem, rfl⟩ := hmem entry hentry
    exact hne table htable item hitem
  · intro entry hentry
    obtain ⟨table, -, item, -, rfl⟩ := hmem entry hentry
    exact hascending table.name item

end Catalog

end SchemaDelta
