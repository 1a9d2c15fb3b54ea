import Mathlib.Data.List.Perm.Basic
import SchemaDelta.Proofs.Catalog.Column
import SchemaDelta.Proofs.Edit.TableDiff

/-!
# Tables put together

Columns as their rows give them, then indexes, then foreign keys, each in any order, make
up a table that matches the one which they come from.
-/

namespace SchemaDelta

open Named

/-! ## Adding to nothing -/

theorem Named.agree_of_forall₂ {α : Type} [Named α] {same : α → α → Prop} {items others : List α}
    (h : List.Forall₂ (fun a b => key a = key b ∧ same a b) items others) :
    Agree same (lookup items) (lookup others) := by
  induction h with
  | nil => exact fun _ => .none
  | @cons item other items others hfirst _ ih =>
      intro k
      rw [lookup_cons, lookup_cons, hfirst.1]
      by_cases hk : k = key other
      · rw [hk, Function.update_self, Function.update_self]
        exact .some hfirst.2
      · rw [Function.update_of_ne hk, Function.update_of_ne hk]
        exact ih k

theorem Account.of_none {α : Type} [Named α] {same : α → α → Prop} {items : List α}
    (h : Distinct items) : Account same (fun _ => none) (lookup items) [] [] items where
  removed_fits := by simp
  replaced_fits := by simp
  added_fits := fun item hitem => ⟨rfl, lookup_key h hitem⟩
  gone_distinct := .nil
  come_distinct := by simpa using h
  kept := by
    intro k _ hnone
    rw [List.map_nil, List.append_nil] at hnone
    rw [hnone]
    exact .none

namespace Table

/-- The column that the row of a column of the table is built into. -/
def readColumn (table : Table) (column : Column) : Column :=
  { column with default := column.readDefault table.name }

def columnEdits (table : Table) : List TableEdit :=
  table.columns.map fun column => .addColumn (table.readColumn column)

def indexEdits (table : Table) : List TableEdit :=
  table.allIndexes.map .addIndex

def foreignKeyEdits (table : Table) : List TableEdit :=
  table.foreignKeys.map .addForeignKey

/-- The columns of the table are added, then its indexes and then its foreign keys, in any
order of each. -/
inductive Assembles (table : Table) : List TableEdit → Prop
  | mk {columnEdits indexEdits foreignKeyEdits : List TableEdit}
      (columns : columnEdits.Perm table.columnEdits) (indexes : indexEdits.Perm table.indexEdits)
      (foreignKeys : foreignKeyEdits.Perm table.foreignKeyEdits) :
      Assembles table (columnEdits ++ indexEdits ++ foreignKeyEdits)

theorem moves_of_perm {α : Type} [Named α] (realises : TableEdit → Move α → Prop)
    {edit : α → TableEdit} {items : List α} {edits : List TableEdit}
    (hperm : edits.Perm (items.map edit)) (h : ∀ item ∈ items, realises (edit item) (.add item)) :
    ∃ moves, List.Forall₂ realises edits moves ∧ (Account.moves [] [] items).Perm moves := by
  obtain ⟨moves, hmoves, hadds⟩ := List.perm_comp_forall₂ hperm (realises_map h)
  refine ⟨moves, hmoves, ?_⟩
  simpa [Account.moves] using hadds.symm

variable {table : Table}

/-- What a table is put together as matches the table. -/
theorem WellFormed.exists_assembled (h : table.WellFormed)
    (hcolumns : ∀ column ∈ table.columns, Column.Same (table.readColumn column) column)
    {edits : List TableEdit} (hedits : table.Assembles edits) :
    ∃ assembled, Reaches { name := table.name } edits assembled ∧ assembled.Coherent ∧
      assembled.Matches table := by
  obtain @⟨columnEdits, indexEdits, foreignKeyEdits, hcolumnEdits, hindexEdits,
    hforeignKeyEdits⟩ := hedits
  have hstart : Coherent { name := table.name } := (Built.new table.name).wellFormed.toCoherent
  have hkey : ∀ column, key (table.readColumn column) = key column := fun _ => rfl
  have hread : Distinct (table.columns.map table.readColumn) := (distinct_map hkey).mpr h.columns
  have hcolumnEdits' : columnEdits.Perm
      ((table.columns.map table.readColumn).map .addColumn) := by rwa [List.map_map]
  obtain ⟨columnMoves, hcolumnMoves, hcolumnPerm⟩ :=
    moves_of_perm MovesColumn hcolumnEdits' fun column hcolumn => by
      obtain ⟨original, horiginal, rfl⟩ := List.mem_map.mp hcolumn
      exact .add _ (h.admissible original horiginal)
  obtain ⟨columns, hfirst, hcoherent₁, hcolumns₁⟩ := reaches_columns hstart
    (.of_none hread) (.refl .refl _) (by simp [keyColumns, allIndexes]) hcolumnPerm hcolumnMoves
  have hagree := hcolumns₁.trans .trans (agree_of_forall₂
    (List.forall₂_map_left_iff.mpr (List.forall₂_same.mpr fun column hcolumn =>
      ⟨hkey column, hcolumns column hcolumn⟩)))
  obtain ⟨indexMoves, hindexMoves, hindexPerm⟩ :=
    moves_of_perm (MovesIndex { name := table.name, columns } fun _ => none)
      hindexEdits fun index hindex =>
        .add index (h.wellNamed hindex) ((h.supports hindex).of_agree hagree)
  obtain ⟨primaryKey, indexes, hsecond, hcoherent₂, hindexes⟩ := reaches_indexes hcoherent₁
    (.of_none h.allIndexes_distinct) (.refl .refl _) hindexPerm hindexMoves
  obtain ⟨keyMoves, hkeyMoves, hkeyPerm⟩ :=
    moves_of_perm (MovesForeignKey { name := table.name, columns, primaryKey, indexes })
      hforeignKeyEdits fun key hmem => by
        refine .add key (h.arity key hmem) (Declares.of_agree (fun name hname => ?_) hagree)
        exact h.spelled.declares name (mem_keyColumns.mpr (.inr ⟨key, hmem, hname⟩))
  obtain ⟨foreignKeys, hthird, hcoherent₃, hforeignKeys⟩ := reaches_foreignKeys hcoherent₂
    (.of_none h.foreignKeys.distinct) (.refl .refl _) hkeyPerm hkeyMoves
  exact ⟨_, (hfirst.append hsecond).append hthird, hcoherent₃, rfl, hagree, hindexes, hforeignKeys⟩

end Table

end SchemaDelta
