import Mathlib.Data.Prod.Lex
import Mathlib.Data.String.Basic
import SchemaDelta.Proofs.Catalog.Growth

/-!
# The order of rows

Servers promise no order of the rows of keys, and list rows of views with those of
tables.  What a catalog is put together into depends on neither, nor does the error
that it may be rejected with: the rows of each key are ordered by position and the
keys by name, and a row of a table that is not listed is not even looked at.
-/

namespace SchemaDelta.Catalog

/-! ## Groups -/

section Groups

theorem groupLe_iff {a b : String × String} : groupLe a b = true ↔ toLex a ≤ toLex b := by
  rw [Prod.Lex.le_iff]
  simp [groupLe]

theorem groupLe_trans (a b c : String × String) (hab : groupLe a b = true)
    (hbc : groupLe b c = true) : groupLe a c = true :=
  groupLe_iff.mpr ((groupLe_iff.mp hab).trans (groupLe_iff.mp hbc))

theorem groupLe_total (a b : String × String) : (groupLe a b || groupLe b a) = true := by
  rw [Bool.or_eq_true, groupLe_iff, groupLe_iff]
  exact le_total _ _

theorem mergeSort_groupLe_eq {names sorted : List (String × String)} (hperm : names.Perm sorted)
    (hsorted : sorted.Pairwise fun a b => groupLe a b = true) :
    names.mergeSort groupLe = sorted := by
  refine mergeSort_eq_of_perm groupLe_trans groupLe_total ?_ hperm hsorted
  intro a _ b _ hab hba
  exact toLex_inj.mp (le_antisymm (groupLe_iff.mp hab) (groupLe_iff.mp hba))

theorem pairwise_mergeSort_groupLe (names : List (String × String)) :
    (names.mergeSort groupLe).Pairwise fun a b => groupLe a b = true :=
  List.pairwise_mergeSort groupLe_trans groupLe_total names

variable {α : Type} {group : α → String × String} {position : α → Int} {rows others : List α}

/-- Whether the rows of each group have positions of their own. -/
def DistinctPositions (group : α → String × String) (position : α → Int) (rows : List α) : Prop :=
  rows.Pairwise fun a b => group a = group b → position a ≠ position b

theorem DistinctPositions.sublist (h : DistinctPositions group position rows)
    (hsub : others.Sublist rows) : DistinctPositions group position others :=
  List.Pairwise.sublist hsub h

theorem DistinctPositions.ascending (h : DistinctPositions group position rows)
    (name : String × String) :
    ((rows.filter (group · == name)).mergeSort fun a b => position a ≤ position b).Pairwise
      fun a b => position a < position b := by
  have hdistinct : (rows.filter (group · == name)).Pairwise
      fun a b => position a ≠ position b := by
    refine (h.sublist List.filter_sublist).imp_of_mem fun {a b} ha hb hne => ?_
    have ha := beq_iff_eq.mp (List.mem_filter.mp ha).2
    have hb := beq_iff_eq.mp (List.mem_filter.mp hb).2
    exact hne (ha.trans hb.symm)
  have hle := List.pairwise_mergeSort (position_trans position) (position_total position)
    (rows.filter (group · == name))
  have hne := (List.mergeSort_perm (rows.filter (group · == name))
    fun a b => position a ≤ position b).symm.pairwise hdistinct fun hab => hab.symm
  exact (hle.and hne).imp fun ⟨hle, hne⟩ => lt_of_le_of_ne (of_decide_eq_true hle) hne

/-- The order of the rows does not matter to their groups. -/
theorem groups_eq_of_perm (h : DistinctPositions group position rows) (hperm : rows.Perm others) :
    groups group position others = groups group position rows := by
  have hnames : ((others.map group).eraseDups).mergeSort groupLe =
      ((rows.map group).eraseDups).mergeSort groupLe := by
    refine mergeSort_groupLe_eq ?_ (pairwise_mergeSort_groupLe _)
    refine .trans ?_ (List.mergeSort_perm _ _).symm
    refine (List.perm_ext_iff_of_nodup (nodup_eraseDups _) (nodup_eraseDups _)).mpr fun name => ?_
    rw [List.mem_eraseDups, List.mem_eraseDups]
    exact (hperm.symm.map group).mem_iff
  rw [groups, groups, hnames]
  refine List.map_congr_left fun name _ => congrArg (name, ·) ?_
  refine mergeSort_position_eq ?_ (h.ascending name)
  exact (hperm.symm.filter _).trans (List.mergeSort_perm _ _).symm

/-- Leaving out whole groups of rows leaves out the groups. -/
theorem groups_filter (group : α → String × String) (position : α → Int) (rows : List α)
    (keep : String × String → Bool) :
    groups group position (rows.filter fun row => keep (group row)) =
      (groups group position rows).filter fun entry => keep entry.1 := by
  have hnames : (((rows.filter fun row => keep (group row)).map group).eraseDups).mergeSort
      groupLe = (((rows.map group).eraseDups).mergeSort groupLe).filter keep := by
    refine mergeSort_groupLe_eq ?_ ((pairwise_mergeSort_groupLe _).filter _)
    refine .trans ?_ ((List.mergeSort_perm _ _).symm.filter keep)
    refine (List.perm_ext_iff_of_nodup (nodup_eraseDups _)
      ((nodup_eraseDups _).filter keep)).mpr fun name => ?_
    simp only [List.mem_eraseDups, List.mem_map, List.mem_filter]
    constructor
    · rintro ⟨row, ⟨hrow, hkeep⟩, rfl⟩
      exact ⟨⟨row, hrow, rfl⟩, hkeep⟩
    · rintro ⟨⟨row, hrow, rfl⟩, hkeep⟩
      exact ⟨row, ⟨hrow, hkeep⟩, rfl⟩
  rw [groups, groups, hnames, List.filter_map]
  refine List.map_congr_left fun name hname => congrArg (name, ·) ?_
  have hkeep := (List.mem_filter.mp hname).2
  rw [List.filter_filter]
  refine congrArg (List.mergeSort · _) (List.filter_congr fun row _ => ?_)
  cases hrow : group row == name with
  | false => rfl
  | true => rw [beq_iff_eq.mp hrow, hkeep, Bool.and_true]

end Groups

/-! ## Tables that are not listed -/

/-- The tables of the state are those of the names. -/
def State.Lists (state : State) (names : List String) : Prop :=
  ∀ name, (state.tables.get? name).isSome ↔ name ∈ names

/-- The step does nothing where there is no table of the name, and keeps the names of all
tables. -/
structure Concerns (name : String) (step : Step) : Prop where
  skips : ∀ state, state.tables.get? name = none → step state = .ok state
  keeps : ∀ names state next, State.Lists state names → step state = .ok next → next.Lists names

theorem concerns_ok (name : String) : Concerns name .ok where
  skips _ _ := rfl
  keeps _ _ _ hlists hok := Except.ok.inj hok ▸ hlists

theorem concerns_update (name : String)
    (change : Table → Except CatalogError (Table × List Diagnostic)) :
    Concerns name fun state => state.update name change where
  skips state hnone := by rw [State.update, hnone]
  keeps names state next hlists hok := by
    rcases State.update_cases hok with ⟨-, rfl⟩ | ⟨table, edited, _, hget, -, hnext⟩
    · exact hlists
    · intro other
      rw [hnext]
      rcases eq_or_ne other name with rfl | hne
      · rw [Function.update_self, ← hlists, hget, Option.isSome_some, Option.isSome_some]
      · rw [Function.update_of_ne hne, hlists]

theorem concerns_addColumn (mapping : TypeMapping) (row : ColumnRow) :
    Concerns row.table fun state => addColumn mapping state row :=
  concerns_update row.table _

theorem concerns_addIndex (entry : (String × String) × List IndexRow) :
    Concerns entry.1.1 fun state => addIndex state entry := by
  obtain ⟨⟨table, name⟩, rows⟩ := entry
  cases rows with
  | nil => exact concerns_ok table
  | cons first rows => exact concerns_update table _

theorem concerns_addForeignKey (entry : (String × String) × List ForeignKeyRow) :
    Concerns entry.1.1 fun state => addForeignKey state entry := by
  obtain ⟨⟨table, name⟩, rows⟩ := entry
  cases rows with
  | nil => exact concerns_ok table
  | cons first rows => exact concerns_update table _

variable {catalog other : Catalog} {mapping : TypeMapping}

theorem concerns_of_mem_placedSteps {placed : String × Step}
    (h : placed ∈ catalog.placedSteps mapping) : Concerns placed.1 placed.2 := by
  rcases List.mem_append.mp h with h | h
  · rcases List.mem_append.mp h with h | h
    · obtain ⟨row, -, rfl⟩ := List.mem_map.mp h
      exact concerns_addColumn mapping row
    · obtain ⟨entry, -, rfl⟩ := List.mem_map.mp h
      exact concerns_addIndex entry
  · obtain ⟨entry, -, rfl⟩ := List.mem_map.mp h
    exact concerns_addForeignKey entry

/-- Steps that concern no table of the state can be left out. -/
theorem foldlM_listed {names : List String} {steps : List (String × Step)}
    (hsteps : ∀ placed ∈ steps, Concerns placed.1 placed.2) {state : State}
    (hlists : state.Lists names) :
    (steps.filter (·.1 ∈ names)).foldlM (fun state placed => placed.2 state) state =
      steps.foldlM (fun state placed => placed.2 state) state := by
  induction steps generalizing state with
  | nil => rfl
  | cons placed steps ih =>
      obtain ⟨hplaced, hsteps⟩ := List.forall_mem_cons.mp hsteps
      rw [List.foldlM_cons]
      by_cases hlisted : placed.1 ∈ names
      · rw [List.filter_cons_of_pos (by simpa using hlisted), List.foldlM_cons]
        cases hstep : placed.2 state with
        | error error => rfl
        | ok next => exact ih hsteps (hplaced.keeps names state next hlists hstep)
      · have hnone := Option.not_isSome_iff_eq_none.mp (mt (hlists placed.1).mp hlisted)
        rw [List.filter_cons_of_neg (by simpa using hlisted), hplaced.skips state hnone]
        exact ih hsteps hlists

theorem emptyTables_lists (names : List String) (diagnostics : List Diagnostic) :
    State.Lists ⟨emptyTables names, diagnostics⟩ names := by
  intro name
  rw [get?_emptyTables]
  split <;> simp_all

/-! ## Catalogs -/

/-- Two catalogs list the same tables, with the same rows.  Those of the columns are in the same
order, and those of the keys in any order.  Between them may be any rows of tables that are
not listed. -/
structure Rearranges (catalog other : Catalog) : Prop where
  tables : catalog.tables = other.tables
  columns : catalog.columns.filter (·.table ∈ other.tables) =
    other.columns.filter (·.table ∈ other.tables)
  indexes : (catalog.indexes.filter (·.table ∈ other.tables)).Perm
    (other.indexes.filter (·.table ∈ other.tables))
  foreignKeys : (catalog.foreignKeys.filter (·.table ∈ other.tables)).Perm
    (other.foreignKeys.filter (·.table ∈ other.tables))

/-- Whether no two rows of a key have the same position. -/
structure Positioned (catalog : Catalog) : Prop where
  indexes : DistinctPositions (fun row => (row.table, row.name)) IndexRow.position catalog.indexes
  foreignKeys : DistinctPositions (fun row => (row.table, row.name)) ForeignKeyRow.position
    catalog.foreignKeys

theorem filter_placedSteps (catalog : Catalog) (mapping : TypeMapping) (names : List String) :
    (catalog.placedSteps mapping).filter (·.1 ∈ names) =
      placedSteps
        { catalog with
          columns := catalog.columns.filter (·.table ∈ names)
          indexes := catalog.indexes.filter (·.table ∈ names)
          foreignKeys := catalog.foreignKeys.filter (·.table ∈ names) } mapping := by
  have hindexes := groups_filter (fun row => (row.table, row.name)) IndexRow.position
    catalog.indexes fun name => name.1 ∈ names
  have hforeignKeys := groups_filter (fun row => (row.table, row.name)) ForeignKeyRow.position
    catalog.foreignKeys fun name => name.1 ∈ names
  simp only [placedSteps, indexGroups, foreignKeyGroups, List.filter_append, List.filter_map,
    hindexes, hforeignKeys]
  rfl

/-- A catalog gives the same schema and diagnostics, or the same error, when the rows of keys
come in another order and rows of tables that are not listed are in between. -/
theorem assemble_rearranged (hpositioned : catalog.Positioned)
    (hrearranges : other.Rearranges catalog) (database : String) (mapping : TypeMapping) :
    other.assemble database mapping = catalog.assemble database mapping := by
  have hlisted : (other.placedSteps mapping).filter (·.1 ∈ catalog.tables) =
      (catalog.placedSteps mapping).filter (·.1 ∈ catalog.tables) := by
    have hindexes := groups_eq_of_perm (hpositioned.indexes.sublist List.filter_sublist)
      hrearranges.indexes.symm
    have hforeignKeys := groups_eq_of_perm (hpositioned.foreignKeys.sublist List.filter_sublist)
      hrearranges.foreignKeys.symm
    rw [filter_placedSteps, filter_placedSteps]
    simp only [placedSteps, indexGroups, foreignKeyGroups, hrearranges.columns, hindexes,
      hforeignKeys]
  have hlists := emptyTables_lists catalog.tables []
  rw [assemble_eq_placedSteps, assemble_eq_placedSteps, hrearranges.tables,
    ← foldlM_listed (fun _ => concerns_of_mem_placedSteps) hlists, hlisted,
    foldlM_listed (fun _ => concerns_of_mem_placedSteps) hlists]

/-- The rows of the table with those of a view, one of which has no type that could be
read. -/
def partsAndView : Catalog where
  tables := parts.tables
  columns := ⟨"view", "id", "((", true, none, "", ""⟩ :: parts.columns
  indexes := parts.indexes.reverse ++ [⟨"view", "shown", true, "BTREE", 1, "id"⟩]
  foreignKeys := ⟨"view", "inside", 1, "id", "none", "id", "", ""⟩ :: parts.foreignKeys

theorem assemble_rearranged_partsAndView :
    (Sql.columnType "((").toOption = none ∧
      partsAndView.assemble "shop" .mysql = parts.assemble "shop" .mysql := by
  have hindexes : DistinctPositions (fun row => (row.table, row.name)) IndexRow.position
      parts.indexes := by
    unfold DistinctPositions
    decide
  have hforeignKeys : DistinctPositions (fun row => (row.table, row.name))
      ForeignKeyRow.position parts.foreignKeys := by
    unfold DistinctPositions
    decide
  have hrearranges : partsAndView.Rearranges parts :=
    ⟨rfl, by decide, by decide +kernel, by decide +kernel⟩
  exact ⟨by decide +kernel, assemble_rearranged ⟨hindexes, hforeignKeys⟩ hrearranges "shop" .mysql⟩

end SchemaDelta.Catalog
