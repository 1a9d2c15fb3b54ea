import Mathlib.Data.List.Perm.Basic
import SchemaDelta.Catalog
import SchemaDelta.Proofs.Schema.Built

/-!
# Keys as catalogs report them

A catalog has a row for each column of an index or a foreign key, with the position of
the column.  However the rows are mixed, grouping them by table and name, and ordering
each group by position, gives the rows of each key again.
-/

namespace SchemaDelta

open Named

/-! ## Grouping -/

namespace Catalog

theorem nodup_eraseDups {α : Type} [BEq α] [LawfulBEq α] (items : List α) :
    items.eraseDups.Nodup := by
  match items with
  | [] => simp
  | item :: items =>
      rw [List.eraseDups_cons, List.nodup_cons]
      refine ⟨fun hmem => ?_, nodup_eraseDups (items.filter fun other => !other == item)⟩
      simpa using List.mem_eraseDups.mp hmem
termination_by items.length
decreasing_by
  exact Nat.lt_succ_of_le (List.length_filter_le _ _)

/-- Of everything that belongs to several things, what belongs to one of them. -/
theorem filter_flatMap_of_nodup {ι β κ : Type} [BEq κ] [LawfulBEq κ] {place : β → κ} {key : ι → κ}
    {belongings : ι → List β} {list : List ι} (hdistinct : (list.map key).Nodup)
    (hplace : ∀ i ∈ list, ∀ b ∈ belongings i, place b = key i) {i : ι} (hi : i ∈ list) :
    (list.flatMap belongings).filter (place · == key i) = belongings i := by
  have hown : ∀ j ∈ list, key j = key i →
      (belongings j).filter (place · == key i) = belongings j := by
    intro j hj heq
    refine List.filter_eq_self.mpr fun b hb => ?_
    simp [hplace j hj b hb, heq]
  have hother : ∀ j ∈ list, key j ≠ key i → (belongings j).filter (place · == key i) = [] := by
    intro j hj hne
    refine List.filter_eq_nil_iff.mpr fun b hb => ?_
    simpa [hplace j hj b hb] using hne
  induction list with
  | nil => cases hi
  | cons j list ih =>
      obtain ⟨hfirst, hrest⟩ := List.nodup_cons.mp hdistinct
      rw [List.flatMap_cons, List.filter_append]
      rcases List.mem_cons.mp hi with rfl | hi
      · rw [hown i (by simp) rfl, List.filter_flatMap]
        refine (congrArg (belongings i ++ ·) (List.flatMap_eq_nil_iff.mpr fun j hj => ?_)).trans
          (List.append_nil _)
        exact hother j (by simp [hj]) fun heq => hfirst (heq ▸ List.mem_map_of_mem hj)
      · have hne : key j ≠ key i := fun heq => hfirst (heq ▸ List.mem_map_of_mem hi)
        rw [hother j (by simp) hne, List.nil_append]
        exact ih hrest (fun j hj => hplace j (by simp [hj])) hi
          (fun j hj => hown j (by simp [hj])) fun j hj => hother j (by simp [hj])

/-- A list that is in order, and has the things of another one, is what sorting this one
gives. -/
theorem mergeSort_eq_of_perm {α : Type} {le : α → α → Bool}
    (htrans : ∀ a b c, le a b = true → le b c = true → le a c = true)
    (htotal : ∀ a b, (le a b || le b a) = true) {items sorted : List α}
    (hantisymm : ∀ a ∈ sorted, ∀ b ∈ sorted, le a b = true → le b a = true → a = b)
    (hperm : items.Perm sorted) (hsorted : sorted.Pairwise fun a b => le a b = true) :
    items.mergeSort le = sorted := by
  have hsorts := (List.mergeSort_perm items le).trans hperm
  refine List.Perm.eq_of_pairwise ?_ (List.pairwise_mergeSort htrans htotal items) hsorted hsorts
  exact fun a b ha hb hab hba => hantisymm a (hsorts.mem_iff.mp ha) b hb hab hba

theorem position_trans {α : Type} (position : α → Int) (a b c : α)
    (hab : decide (position a ≤ position b) = true)
    (hbc : decide (position b ≤ position c) = true) :
    decide (position a ≤ position c) = true :=
  decide_eq_true (Int.le_trans (of_decide_eq_true hab) (of_decide_eq_true hbc))

theorem position_total {α : Type} (position : α → Int) (a b : α) :
    (decide (position a ≤ position b) || decide (position b ≤ position a)) = true := by
  simpa using Int.le_total (position a) (position b)

theorem mergeSort_position_eq {α : Type} {position : α → Int} {rows sorted : List α}
    (hperm : rows.Perm sorted) (hascending : sorted.Pairwise fun a b => position a < position b) :
    rows.mergeSort (fun a b => position a ≤ position b) = sorted := by
  refine mergeSort_eq_of_perm (position_trans position) (position_total position) ?_ hperm
    (hascending.imp fun hlt => decide_eq_true (Int.le_of_lt hlt))
  intro a ha b hb hab hba
  have hequal := Int.le_antisymm (of_decide_eq_true hab) (of_decide_eq_true hba)
  -- two rows of one group have the same position only if they are one row
  have : Std.Symm fun a b : α => position a ≠ position b := ⟨fun _ _ hab => hab.symm⟩
  by_contra hne
  exact List.Pairwise.forall (hascending.imp Int.ne_of_lt) ha hb hne hequal

section Groups

variable {α : Type} {group : α → String × String} {position : α → Int} {rows : List α}
  {entries : List ((String × String) × List α)}

/-- Entries of rows that belong together, each in the order of the positions. -/
structure Grouped (group : α → String × String) (position : α → Int)
    (entries : List ((String × String) × List α)) : Prop where
  distinct : (entries.map (·.1)).Nodup
  group : ∀ entry ∈ entries, ∀ row ∈ entry.2, group row = entry.1
  ne_nil : ∀ entry ∈ entries, entry.2 ≠ []
  ascending : ∀ entry ∈ entries, entry.2.Pairwise fun a b => position a < position b

namespace Grouped

variable (h : Grouped group position entries) (hrows : rows.Perm (entries.flatMap (·.2)))

include h hrows

/-- The rows of a group are found among all rows, and put in order. -/
theorem sorted_eq {entry : (String × String) × List α} (hentry : entry ∈ entries) :
    (rows.filter (group · == entry.1)).mergeSort (fun a b => position a ≤ position b)
      = entry.2 := by
  refine mergeSort_position_eq ?_ (h.ascending entry hentry)
  rw [← filter_flatMap_of_nodup h.distinct h.group hentry]
  exact hrows.filter _

theorem groups_perm : (groups group position rows).Perm entries := by
  have hnames : (((rows.map group).eraseDups).mergeSort groupLe).Perm (entries.map (·.1)) := by
    refine (List.mergeSort_perm _ _).trans
      ((List.perm_ext_iff_of_nodup (nodup_eraseDups _) h.distinct).mpr fun name => ?_)
    rw [List.mem_eraseDups, List.mem_map, List.mem_map]
    constructor
    · rintro ⟨row, hrow, rfl⟩
      obtain ⟨entry, hentry, hmem⟩ := List.mem_flatMap.mp (hrows.mem_iff.mp hrow)
      exact ⟨entry, hentry, (h.group entry hentry row hmem).symm⟩
    · rintro ⟨entry, hentry, rfl⟩
      obtain ⟨row, hrow⟩ := List.exists_mem_of_ne_nil _ (h.ne_nil entry hentry)
      exact ⟨row, hrows.mem_iff.mpr (List.mem_flatMap.mpr ⟨entry, hentry, hrow⟩),
        h.group entry hentry row hrow⟩
  refine (hnames.map _).trans (.of_eq ?_)
  rw [List.map_map]
  refine (List.map_congr_left fun entry hentry => ?_).trans (List.map_id _)
  exact Prod.ext rfl (h.sorted_eq hrows hentry)

end Grouped

end Groups

/-! ## Rows of one key -/

/-- One row for each item, with its position. -/
def numbered {α β : Type} (row : α → Int → β) (items : List α) : List β :=
  (items.zipIdx 1).map fun item => row item.1 item.2

section Numbered

variable {α β γ : Type} {row : α → Int → β} {items : List α}

theorem map_numbered {f : β → γ} {g : α → γ} (h : ∀ item position, f (row item position) = g item) :
    (numbered row items).map f = items.map g := by
  calc (numbered row items).map f = (items.zipIdx 1).map (g ∘ Prod.fst) := by
        unfold numbered
        rw [List.map_map]
        exact List.map_congr_left fun item _ => h item.1 item.2
    _ = ((items.zipIdx 1).map Prod.fst).map g := List.map_map.symm
    _ = items.map g := by rw [List.zipIdx_map_fst]

theorem forall_mem_numbered {P : β → Prop} (h : ∀ item position, P (row item position)) :
    ∀ b ∈ numbered row items, P b := by
  unfold numbered
  rw [List.forall_mem_map]
  exact fun item _ => h item.1 item.2

theorem numbered_ne_nil (h : items ≠ []) : numbered row items ≠ [] := by
  cases items with
  | nil => exact absurd rfl h
  | cons item items => simp [numbered]

theorem numbered_ascending {position : β → Int} (h : ∀ item n, position (row item n) = n) :
    (numbered row items).Pairwise fun a b => position a < position b := by
  have hfrom : ∀ start, (items.zipIdx start).Pairwise fun a b => a.2 < b.2 := by
    induction items with
    | nil => simp
    | cons item items ih =>
        intro start
        rw [List.zipIdx_cons]
        refine List.pairwise_cons.mpr ⟨fun other hother => ?_, ih (start + 1)⟩
        exact List.le_snd_of_mem_zipIdx hother
  unfold numbered
  rw [List.pairwise_map]
  refine (hfrom 1).imp fun hlt => ?_
  rw [h, h]
  exact Int.ofNat_lt.mpr hlt

end Numbered

end Catalog

open Catalog

/-- The type of index that a catalog gives.  Keys of all other kinds are trees. -/
def IndexKind.catalogType : IndexKind → String
  | fulltext => "FULLTEXT"
  | spatial => "SPATIAL"
  | _ => "BTREE"

def Index.rows (table : String) (index : Index) : List IndexRow :=
  numbered (fun column position =>
    { table, name := index.name, nonUnique := index.kind ∉ [.primary, .unique],
      indexType := index.kind.catalogType, position, column }) index.columns

def ForeignKey.rows (table : String) (key : ForeignKey) : List ForeignKeyRow :=
  numbered (fun pair position =>
    { table, name := key.name, position, column := pair.1,
      referencedTable := key.referencedTable, referencedColumn := pair.2,
      updateRule := key.onUpdate.sql, deleteRule := key.onDelete.sql })
    (key.columns.zip key.referencedColumns)

namespace Index

variable (table : String) {index : Index}

theorem rows_ne_nil (hne : index.columns ≠ []) : index.rows table ≠ [] :=
  numbered_ne_nil hne

theorem map_column_rows : (index.rows table).map (·.column) = index.columns :=
  (map_numbered (f := IndexRow.column) (g := id) fun _ _ => rfl).trans (List.map_id _)

/-- The kind of an index is told by its name and its rows. -/
theorem indexKind_row (hname : index.WellNamed) :
    ∀ row ∈ index.rows table, indexKind row = index.kind := by
  refine forall_mem_numbered fun column position => ?_
  unfold indexKind
  dsimp only
  cases hprimary : index.isPrimary with
  | true =>
      have heq := hname.primary hprimary
      have hsame : sameName index.name primaryName = true := by
        rw [heq]
        exact sameName_iff.mpr rfl
      rw [if_pos hsame, heq]
      rfl
  | false =>
      have hother : sameName index.name primaryName = false :=
        Bool.eq_false_iff.mpr fun hsame => hname.secondary hprimary (sameName_iff.mp hsame)
      rw [if_neg (by simp [hother])]
      cases hkind : index.kind with
      | primary => simp [isPrimary, hkind] at hprimary
      | _ => rfl

end Index

namespace ForeignKey

variable (table : String) {key : ForeignKey}

theorem rows_ne_nil (hne : key.columns ≠ []) (hreferenced : key.referencedColumns ≠ []) :
    key.rows table ≠ [] :=
  numbered_ne_nil fun hzip => (List.zip_eq_nil_iff.mp hzip).elim hne hreferenced

theorem map_column_rows (harity : key.columns.length = key.referencedColumns.length) :
    (key.rows table).map (·.column) = key.columns :=
  (map_numbered (f := ForeignKeyRow.column) (g := Prod.fst) fun _ _ => rfl).trans
    (List.map_fst_zip (Nat.le_of_eq harity))

theorem map_referencedColumn_rows (harity : key.columns.length = key.referencedColumns.length) :
    (key.rows table).map (·.referencedColumn) = key.referencedColumns :=
  (map_numbered (f := ForeignKeyRow.referencedColumn) (g := Prod.snd) fun _ _ => rfl).trans
    (List.map_snd_zip (Nat.le_of_eq harity.symm))

theorem rule_row (key : ForeignKey) : ∀ row ∈ key.rows table,
    row.referencedTable = key.referencedTable ∧ actionOf row.updateRule = key.onUpdate
      ∧ actionOf row.deleteRule = key.onDelete := by
  have haction : ∀ action : ReferentialAction, actionOf action.sql = action := by
    intro action
    cases action <;> decide
  exact forall_mem_numbered fun _ _ => ⟨rfl, haction _, haction _⟩

end ForeignKey

end SchemaDelta
