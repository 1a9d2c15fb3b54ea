import SchemaDelta.Proofs.Diff.Table

/-!
# Differences between schemas
-/

namespace SchemaDelta.Schema

open Named

/-- Tables under their own keys, all of them coherent. -/
structure Coherent (schema : Schema) : Prop where
  keyed : schema.Keyed
  tables : ∀ table ∈ schema.tableList, table.Coherent

theorem WellFormed.coherent {schema : Schema} (h : schema.WellFormed) : schema.Coherent :=
  ⟨h.keyed, fun table htable => (h.tables table htable).toCoherent⟩

/-- Whether two schemas have matching tables. -/
def Matches (schema other : Schema) : Prop :=
  Agree Table.Matches (lookup schema.tableList) (lookup other.tableList)

variable {old new : Schema}

/-- The pairs of tables whose differences a difference of schemas consists of. -/
def replacedTables (old new : Schema) : List (Change Table) :=
  Named.sort (Delta.altered (fun a b => (a.diff b).isEmpty) old.tableList new.tableList
    ++ (pairOff Table.tablesMate (Delta.unmatched old.tableList new.tableList)
      (Delta.unmatched new.tableList old.tableList)).pairs)

theorem diff_changed (old new : Schema) :
    (old.diff new).changed =
      (replacedTables old new).map fun change => change.old.diff change.new := by
  rw [replacedTables, ← sort_map (f := fun change : Change Table => change.old.diff change.new)
    fun _ => rfl, List.map_append, Delta.altered]
  exact congrArg (fun changed => Named.sort (changed ++ _)) List.filter_map

section Coherent

variable (hold : old.Coherent) (hnew : new.Coherent)

include hold hnew

theorem diff_isEmpty_iff_matches {k : String} {a b : Table}
    (ha : lookup old.tableList k = some a) (hb : lookup new.tableList k = some b) :
    (a.diff b).isEmpty = true ↔ a.Matches b :=
  Table.diff_isEmpty_iff (hold.tables a (mem_of_lookup ha).1)
    (hnew.tables b (mem_of_lookup hb).1)

theorem diff_account :
    Account Table.Matches (lookup old.tableList) (lookup new.tableList)
      (old.diff new).removed (replacedTables old new) (old.diff new).added :=
  ((Delta.account_of_pairOff _ Table.tablesMate hold.keyed.distinct hnew.keyed.distinct rfl).perm
    .rfl (Delta.sort_perm _).symm .rfl).mono fun _ _ _ ha hb =>
      (diff_isEmpty_iff_matches hold hnew ha hb).mp

theorem diff_isEmpty_iff : (old.diff new).isEmpty = true ↔ old.Matches new := by
  have hnothing := Delta.nothing_iff_agree (fun a b : Table => (a.diff b).isEmpty) Table.tablesMate
    hold.keyed.distinct hnew.keyed.distinct rfl
  have hempty : (old.diff new).isEmpty = true ↔
      (old.diff new).removed = [] ∧ replacedTables old new = [] ∧ (old.diff new).added = [] := by
    rw [SchemaDiff.isEmpty, diff_changed]
    simp only [Bool.and_eq_true, List.isEmpty_iff, List.map_eq_nil_iff]
    exact ⟨fun ⟨⟨hadded, hremoved⟩, hchanged⟩ => ⟨hremoved, hchanged, hadded⟩,
      fun ⟨hremoved, hchanged, hadded⟩ => ⟨⟨hadded, hremoved⟩, hchanged⟩⟩
  rw [hempty, replacedTables, Delta.sort_eq_nil_iff]
  refine hnothing.trans (forall_congr' fun k => ?_)
  cases ha : lookup old.tableList k <;> cases hb : lookup new.tableList k <;> simp
  exact (diff_isEmpty_iff_matches hold hnew ha hb)

end Coherent

end SchemaDelta.Schema
