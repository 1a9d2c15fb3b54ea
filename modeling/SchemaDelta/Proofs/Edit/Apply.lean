import SchemaDelta.Proofs.Diff.Schema
import SchemaDelta.Proofs.Edit.TableDiff

/-!
# Applying differences

The difference between two schemas applies to every schema that it cannot tell
from the old one, and leads to a schema that it cannot tell from the new one.
-/

namespace SchemaDelta

open Named

namespace Schema

variable {schema edited : Schema}

theorem Coherent.of_lookup (hkeyed : schema.Keyed)
    (htables : ∀ k table, lookup schema.tableList k = some table → table.Coherent) :
    schema.Coherent :=
  ⟨hkeyed, fun table hmem => htables (key table) table (lookup_key hkeyed.distinct hmem)⟩

theorem Coherent.table (h : schema.Coherent) {k : String} {table : Table}
    (hfound : lookup schema.tableList k = some table) : table.Coherent :=
  h.tables table (mem_of_lookup hfound).1

theorem Coherent.of_update (h : schema.Coherent) {k : String} {table : Table}
    (hlookup : lookup edited.tableList = Function.update (lookup schema.tableList) k (some table))
    (htable : table.Coherent) :
    ∀ k table, lookup edited.tableList k = some table → table.Coherent := by
  intro other found hfound
  rw [hlookup] at hfound
  by_cases hk : other = k
  · rw [hk, Function.update_self, Option.some.injEq] at hfound
    exact hfound ▸ htable
  · rw [Function.update_of_ne hk] at hfound
    exact h.table hfound

theorem Coherent.removeTable (h : schema.Coherent) {name : String} {table : Table}
    (hfound : lookup schema.tableList (lowerCase name) = some table) :
    ∃ edited, schema.removeTable name = .ok (table, edited) ∧ edited.Coherent ∧
      lookup edited.tableList =
        Function.update (lookup schema.tableList) (lowerCase name) none := by
  obtain ⟨edited, hok, hkeyed, hlookup⟩ := removeTable_eq_ok h.keyed hfound
  refine ⟨edited, hok, .of_lookup hkeyed fun k other hother => ?_, hlookup⟩
  rw [hlookup] at hother
  by_cases hk : k = lowerCase name
  · rw [hk, Function.update_self] at hother
    cases hother
  · rw [Function.update_of_ne hk] at hother
    exact h.table hother

theorem Coherent.addTable (h : schema.Coherent) {table : Table} (htable : table.Coherent)
    (hfree : lookup schema.tableList (key table) = none) :
    ∃ edited, schema.addTable table = .ok edited ∧ edited.Coherent ∧
      lookup edited.tableList =
        Function.update (lookup schema.tableList) (key table) (some table) := by
  obtain ⟨edited, hok, hkeyed, hlookup⟩ := addTable_eq_ok h.keyed hfree
  exact ⟨edited, hok, .of_lookup hkeyed (h.of_update hlookup htable), hlookup⟩

/-- Tables of different names are added one after another. -/
theorem Coherent.exists_addTables (h : schema.Coherent)
    {tables : List Table} (htables : ∀ table ∈ tables, table.Coherent) (hdistinct : Distinct tables)
    (hfree : ∀ table ∈ tables, lookup schema.tableList (key table) = none) :
    ∃ edited, tables.foldlM Schema.addTable schema = .ok edited ∧ edited.Coherent ∧
      ∀ k, lookup edited.tableList k = (lookup tables k).or (lookup schema.tableList k) := by
  induction tables generalizing schema with
  | nil => exact ⟨schema, rfl, h, fun _ => rfl⟩
  | cons table tables ih =>
      obtain ⟨hfirst, hrest⟩ := distinct_cons.mp hdistinct
      obtain ⟨middle, hadd, hmiddle, hlookup⟩ := h.addTable (htables table (by simp))
        (hfree table (by simp))
      have hne : ∀ other ∈ tables, key other ≠ key table := lookup_eq_none_iff.mp hfirst
      obtain ⟨edited, hfold, hedited, hfinal⟩ := ih hmiddle
        (fun other hother => htables other (by simp [hother])) hrest (fun other hother => by
          rw [hlookup, Function.update_of_ne (hne other hother)]
          exact hfree other (by simp [hother]))
      refine ⟨edited, ?_, hedited, fun k => ?_⟩
      · rw [List.foldlM_cons, hadd]
        exact hfold
      · rw [hfinal, hlookup, lookup_cons]
        by_cases hk : k = key table
        · subst hk
          rw [Function.update_self, Function.update_self, hfirst]
          rfl
        · rw [Function.update_of_ne hk, Function.update_of_ne hk]

/-! ## Runs -/

/-- A schema whose tables are on their way from `source` to `target`. -/
structure State (source target : String → Option Table) (moves : List (Move Table))
    (schema : Schema) : Prop where
  coherent : schema.Coherent
  plan : Plan Table.Matches source target moves
  progress : Progress Table.Matches source target moves (lookup schema.tableList)

/-- Steps that keep up with the moves of a plan all succeed. -/
theorem exists_foldlM {β : Type} (step : Schema → β → Except SchemaError Schema)
    {move : β → Move Table} {state : List (Move Table) → Schema → Prop} {items : List β}
    {later : List (Move Table)}
    (hstep : ∀ item ∈ items, ∀ moves schema, state (move item :: moves) schema →
      ∃ edited, step schema item = .ok edited ∧ state moves edited)
    (hstate : state (items.map move ++ later) schema) :
    ∃ edited, items.foldlM step schema = .ok edited ∧ state later edited := by
  induction items generalizing schema with
  | nil => exact ⟨schema, rfl, hstate⟩
  | cons item items ih =>
      obtain ⟨middle, hfirst, hmiddle⟩ := hstep item List.mem_cons_self _ _ hstate
      obtain ⟨edited, hrest, hedited⟩ :=
        ih (fun other hother => hstep other (List.mem_cons_of_mem _ hother)) hmiddle
      refine ⟨edited, ?_, hedited⟩
      rw [List.foldlM_cons, hfirst]
      exact hrest

namespace State

variable {source target : String → Option Table} {moves : List (Move Table)}

theorem next {move : Move Table} (h : State source target (move :: moves) schema)
    (hcoherent : edited.Coherent)
    (hagree : Agree Table.Matches (lookup edited.tableList)
      (move.apply (lookup schema.tableList))) : State source target moves edited :=
  ⟨hcoherent, h.plan.tail, (h.progress.step h.plan).congr .trans hagree⟩

theorem removeTable {table : Table}
    (h : State source target (.drop (key table) :: moves) schema) :
    ∃ removed edited, schema.removeTable table.name = .ok (removed, edited) ∧
      State source target moves edited := by
  have hfound : lookup schema.tableList (lowerCase table.name) ≠ none :=
    (not_congr (h.progress.eq_none_iff rfl)).mpr h.plan.head_fits.1
  obtain ⟨removed, hremoved⟩ := Option.ne_none_iff_exists'.mp hfound
  obtain ⟨edited, hok, hcoherent, hlookup⟩ := h.coherent.removeTable hremoved
  exact ⟨removed, edited, hok, h.next hcoherent (hlookup ▸ .refl .refl _)⟩

theorem addTable {table : Table} (htable : table.Coherent)
    (h : State source target (.add table :: moves) schema) :
    ∃ edited, schema.addTable table = .ok edited ∧ State source target moves edited := by
  have hfree : lookup schema.tableList (key table) = none :=
    (h.progress.eq_none_iff rfl).mpr h.plan.head_fits.1
  obtain ⟨edited, hok, hcoherent, hlookup⟩ := h.coherent.addTable htable hfree
  exact ⟨edited, hok, h.next hcoherent (hlookup ▸ .refl .refl _)⟩

theorem found {change : Change Table} (hsource : source (key change.old) = some change.old)
    (h : State source target (.replace (key change.old) change.new :: moves) schema) :
    ∃ table, lookup schema.tableList (key change.old) = some table ∧
      table.Matches change.old := by
  have hrel := h.progress.pending_head (k := key change.old) (.inl rfl)
  rw [hsource] at hrel
  cases htable : lookup schema.tableList (key change.old) with
  | none => simp [htable] at hrel
  | some table => exact ⟨table, rfl, by simpa [htable] using hrel⟩

theorem free {change : Change Table}
    (h : State source target (.replace (key change.old) change.new :: moves) schema) :
    Function.update (lookup schema.tableList) (key change.old) none (key change.new) = none := by
  by_cases hkey : key change.new = key change.old
  · rw [hkey, Function.update_self]
  · rw [Function.update_of_ne hkey]
    exact (h.progress.eq_none_iff (.inr rfl)).mpr (h.plan.head_fits.2.2.resolve_left hkey).1

theorem applyTableDiff {change : Change Table} (hold : change.old.WellFormed)
    (hnew : change.new.WellFormed) (hsource : source (key change.old) = some change.old)
    (h : State source target (.replace (key change.old) change.new :: moves) schema) :
    ∃ edited, schema.applyTableDiff (change.old.diff change.new) = .ok edited ∧
      State source target moves edited := by
  obtain ⟨table, hfound, hmatches⟩ := h.found hsource
  obtain ⟨rest, hremove, hrest, hrestLookup⟩ :=
    Coherent.removeTable h.coherent (show lookup _ (lowerCase change.old.name) = _ from hfound)
  obtain ⟨changed, happly, hchanged, hchangedMatches⟩ :=
    Table.applyTo_eq hold hnew (h.coherent.table hfound) hmatches
  have hfree : lookup rest.tableList (key changed) = none := by
    rw [hchangedMatches.name, hrestLookup]
    exact h.free
  obtain ⟨edited, hadd, hcoherent, hlookup⟩ := hrest.addTable hchanged hfree
  refine ⟨edited, ?_, h.next hcoherent ?_⟩
  · unfold Schema.applyTableDiff
    rw [show (change.old.diff change.new).name = change.old.name from rfl, hremove]
    simp only [bind, Except.bind, happly, hadd]
  · rw [hlookup, hrestLookup, hchangedMatches.name]
    exact .update .refl hchangedMatches _ _

end State

end Schema

/-! ## The difference between two schemas -/

namespace SchemaDiff

variable {old new base : Schema}

theorem applyTo_eq_ok (hold : old.WellFormed) (hnew : new.WellFormed) (hbase : base.Coherent)
    (hmatches : base.Matches old) :
    ∃ applied, (old.diff new).applyTo base = .ok applied ∧ applied.Coherent ∧
      applied.Matches new := by
  have haccount := Schema.diff_account hold.coherent hnew.coherent
  have hplan := haccount.plan .refl
  have hstart : Schema.State (lookup old.tableList) (lookup new.tableList) _ base :=
    ⟨hbase, hplan, haccount.progress .trans hmatches .rfl⟩
  have holdTable : ∀ {k table}, lookup old.tableList k = some table → table.WellFormed :=
    fun hfound => hold.tables _ (mem_of_lookup hfound).1
  have hnewTable : ∀ {k table}, lookup new.tableList k = some table → table.WellFormed :=
    fun hfound => hnew.tables _ (mem_of_lookup hfound).1
  rw [Account.moves, List.append_assoc] at hstart
  obtain ⟨first, hremove, hfirst⟩ := Schema.exists_foldlM
    (fun schema table => do return (← schema.removeTable table.name).2)
    (fun table _ moves schema hstate => by
      obtain ⟨removed, edited, hok, hedited⟩ := hstate.removeTable
      exact ⟨edited, by rw [hok]; rfl, hedited⟩) hstart
  obtain ⟨second, hchange, hsecond⟩ := Schema.exists_foldlM
    (fun schema change => schema.applyTableDiff (change.old.diff change.new))
    (fun change hmem moves schema hstate => by
      obtain ⟨hsource, htarget, _⟩ := haccount.replaced_fits change hmem
      exact hstate.applyTableDiff (holdTable hsource) (hnewTable htarget) hsource) hfirst
  rw [← List.append_nil (List.map _ _)] at hsecond
  obtain ⟨applied, hadd, hthird⟩ := Schema.exists_foldlM Schema.addTable
    (fun table hmem moves schema hstate =>
      hstate.addTable (hnewTable (haccount.added_fits table hmem).2).toCoherent) hsecond
  refine ⟨applied, ?_, hthird.coherent, hthird.progress.agree⟩
  unfold applyTo Schema.removeTables Schema.addTables
  rw [Schema.diff_changed, hremove]
  simp only [List.foldlM_map, bind, Except.bind, hchange, hadd]

/-- Applying the difference between two schemas to the old one, or to any schema
without a difference to it, succeeds and leaves no difference to the new one. -/
theorem applyTo_reaches (hold : old.Built) (hnew : new.Built) :
    (old.diff old).isEmpty = true ∧
      ∀ base : Schema, base.Built → (base.diff old).isEmpty = true →
        ∃ applied, (old.diff new).applyTo base = .ok applied ∧
          (applied.diff new).isEmpty = true := by
  have hold' := hold.wellFormed
  have hnew' := hnew.wellFormed
  refine ⟨(Schema.diff_isEmpty_iff hold'.coherent hold'.coherent).mpr (.refl .refl _), ?_⟩
  intro base hbase hempty
  have hbase' := hbase.wellFormed.coherent
  obtain ⟨applied, happly, happlied, hmatches⟩ := applyTo_eq_ok hold' hnew' hbase'
    ((Schema.diff_isEmpty_iff hbase' hold'.coherent).mp hempty)
  exact ⟨applied, happly, (Schema.diff_isEmpty_iff happlied hnew'.coherent).mpr hmatches⟩

end SchemaDiff

/-- A table that is spelled otherwise is renamed, too. -/
theorem SchemaDiff.applyTo_reaches_renamed :
    ∃ applied,
      ((Schema.ofTable (.ofColumn "a" "id")).diff (.ofTable (.ofColumn "b" "id"))).applyTo
          (.ofTable (.ofColumn "A" "ID")) = .ok applied ∧
        (applied.diff (.ofTable (.ofColumn "b" "id"))).isEmpty = true :=
  (SchemaDiff.applyTo_reaches (Schema.ofTable_built (Table.ofColumn_built "a" "id"))
    (Schema.ofTable_built (Table.ofColumn_built "b" "id"))).2 _
    (Schema.ofTable_built (Table.ofColumn_built "A" "ID")) (by decide +kernel)

end SchemaDelta
