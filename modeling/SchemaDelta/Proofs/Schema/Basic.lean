import Mathlib.Data.List.Find
import SchemaDelta.Proofs.Schema.Built
import SchemaDelta.Schema.Basic

/-!
# Operations on schemas

The tables of a schema are under their own keys, so that a schema is a partial
map from keys to tables, too.
-/

namespace SchemaDelta

open Named

/-! ## Sorted maps -/

namespace SortedMap

variable {α : Type}

theorem contains_eq_isSome (m : SortedMap α) (k : String) :
    m.contains k = (m.get? k).isSome := by
  rw [contains, get?, Option.isSome_map, List.isSome_find?]

theorem keys_ne (m : SortedMap α) : m.entries.Pairwise fun a b => a.1 ≠ b.1 := by
  refine m.ascending.imp fun hlt heq => ?_
  rw [heq] at hlt
  exact String.lt_irrefl _ hlt

theorem get?_eq_some_iff {m : SortedMap α} {k : String} {value : α} :
    m.get? k = some value ↔ (k, value) ∈ m.entries := by
  unfold get?
  rw [Option.map_eq_some_iff]
  constructor
  · rintro ⟨⟨name, value⟩, hfound, rfl⟩
    obtain rfl : name = k := by simpa using List.find?_some hfound
    exact List.mem_of_find?_eq_some hfound
  · intro hmem
    obtain ⟨entry, hentry⟩ : ∃ entry, m.entries.find? (·.1 == k) = some entry :=
      Option.isSome_iff_exists.mp (List.find?_isSome.mpr ⟨_, hmem, by simp⟩)
    have hname : entry.1 = k := by simpa using List.find?_some hentry
    have : Std.Symm fun a b : String × α => a.1 ≠ b.1 := ⟨fun _ _ hne => hne.symm⟩
    have heq : entry = (k, value) := by
      by_contra hne
      exact List.Pairwise.forall m.keys_ne (List.mem_of_find?_eq_some hentry) hmem hne hname
    exact ⟨entry, hentry, congrArg Prod.snd heq⟩

theorem find?_entry_cons (entry : String × α) (entries : List (String × α))
    (wanted : String) :
    (entry :: entries).find? (·.1 == wanted) =
      if entry.1 = wanted then some entry else entries.find? (·.1 == wanted) := by
  split
  next h => exact List.find?_cons_of_pos (by simpa using h)
  next h => exact List.find?_cons_of_neg (by simpa using h)

theorem find?_insertEntry (k : String) (value : α) (entries : List (String × α))
    (wanted : String) :
    (insertEntry k value entries).find? (·.1 == wanted) =
      if k = wanted then some (k, value) else entries.find? (·.1 == wanted) := by
  induction entries with
  | nil => exact find?_entry_cons (k, value) [] wanted
  | cons entry entries ih =>
      rw [insertEntry]
      split
      next => exact find?_entry_cons (k, value) _ wanted
      next =>
        split
        next heq =>
          rw [find?_entry_cons, find?_entry_cons, ← heq]
          split <;> rfl
        next hne =>
          rw [find?_entry_cons, find?_entry_cons, ih]
          by_cases hentry : entry.1 = wanted
          · rw [if_pos hentry, if_pos hentry, if_neg fun hk => hne (hk.trans hentry.symm)]
          · rw [if_neg hentry, if_neg hentry]

theorem get?_insert (m : SortedMap α) (k : String) (value : α) :
    (m.insert k value).get? = Function.update m.get? k (some value) := by
  funext wanted
  unfold insert get?
  rw [find?_insertEntry]
  by_cases hk : k = wanted
  · subst wanted
    simp
  · rw [if_neg hk, Function.update_of_ne (Ne.symm hk)]

theorem get?_erase (m : SortedMap α) (k : String) :
    (m.erase k).get? = Function.update m.get? k none := by
  funext wanted
  unfold erase get?
  rw [List.find?_filter]
  by_cases hk : wanted = k
  · subst wanted
    rw [Function.update_self, Option.map_eq_none_iff, List.find?_eq_none]
    simp
  · rw [Function.update_of_ne hk]
    congr 2
    funext entry
    by_cases hentry : entry.1 = wanted
    · simp [hentry, hk]
    · simp [hentry]

theorem get?_insert_eq_none_iff {m : SortedMap α} {k : String} {value : α} {wanted : String} :
    (m.insert k value).get? wanted = none ↔ m.get? wanted = none ∧ wanted ≠ k := by
  rw [get?_insert, Function.update_apply]
  split <;> simp [*]

/-- A map is known by what it has at each key. -/
theorem ext_get? {m n : SortedMap α} (h : m.get? = n.get?) : m = n := by
  have hnodup : ∀ m : SortedMap α, m.entries.Nodup := fun m =>
    m.keys_ne.imp fun hne heq => hne (congrArg Prod.fst heq)
  have hperm : m.entries.Perm n.entries :=
    (List.perm_ext_iff_of_nodup (hnodup m) (hnodup n)).mpr fun entry => by
      rw [← get?_eq_some_iff, ← get?_eq_some_iff, h]
  refine ext (List.Perm.eq_of_pairwise ?_ m.ascending n.ascending hperm)
  exact fun _ _ _ _ hab hba => absurd (String.lt_trans hab hba) (String.lt_irrefl _)

theorem insert_comm (m : SortedMap α) {k k' : String} (hne : k ≠ k') (value value' : α) :
    (m.insert k value).insert k' value' = (m.insert k' value').insert k value := by
  refine ext_get? ?_
  rw [get?_insert, get?_insert, get?_insert, get?_insert]
  exact Function.update_comm hne _ _ _

end SortedMap

/-! ## Schemas -/

namespace Schema

variable {schema edited : Schema} {table : Table}

/-- Whether all tables are under their own keys. -/
def Keyed (schema : Schema) : Prop :=
  ∀ entry ∈ schema.tables.entries, entry.1 = key entry.2

namespace Keyed

theorem ascending (h : schema.Keyed) : Ascending schema.tableList := by
  unfold Ascending tableList SortedMap.values
  rw [List.pairwise_map]
  refine schema.tables.ascending.imp_of_mem fun {a b} ha hb hlt => ?_
  rwa [← h a ha, ← h b hb]

theorem distinct (h : schema.Keyed) : Distinct schema.tableList :=
  h.ascending.distinct

theorem get?_eq_lookup (h : schema.Keyed) : schema.tables.get? = lookup schema.tableList := by
  funext wanted
  unfold SortedMap.get? lookup tableList SortedMap.values
  rw [List.find?_map]
  congr 1
  exact List.find?_congr fun entry hentry => by rw [h entry hentry]; rfl

theorem insert (h : schema.Keyed) (table : Table) :
    Keyed { schema with tables := schema.tables.insert (key table) table } := by
  intro entry hentry
  rcases SortedMap.mem_insertEntry hentry with rfl | hentry
  · rfl
  · exact h entry hentry

theorem erase (h : schema.Keyed) (k : String) :
    Keyed { schema with tables := schema.tables.erase k } := fun entry hentry =>
  h entry (List.mem_filter.mp hentry).1

end Keyed

theorem forall_tableList_insert {P : Table → Prop} (h : ∀ other ∈ schema.tableList, P other)
    (htable : P table) (k : String) :
    ∀ other ∈ tableList { schema with tables := schema.tables.insert k table }, P other := by
  intro other hother
  obtain ⟨entry, hentry, rfl⟩ := List.mem_map.mp hother
  rcases SortedMap.mem_insertEntry hentry with rfl | hentry
  · exact htable
  · exact h entry.2 (List.mem_map_of_mem hentry)

theorem addTable_eq_ok_iff (hkeyed : schema.Keyed) :
    schema.addTable table = .ok edited ↔
      lookup schema.tableList (key table) = none ∧
        edited = { schema with tables := schema.tables.insert (key table) table } := by
  unfold addTable
  rw [SortedMap.contains_eq_isSome, hkeyed.get?_eq_lookup]
  cases lookup schema.tableList (key table) with
  | none => simp [eq_comm]
  | some other => simp

theorem addTable_eq_ok (hkeyed : schema.Keyed)
    (hfree : lookup schema.tableList (key table) = none) :
    ∃ edited, schema.addTable table = .ok edited ∧ edited.Keyed ∧
      lookup edited.tableList =
        Function.update (lookup schema.tableList) (key table) (some table) := by
  have hinsert := hkeyed.insert table
  refine ⟨_, (addTable_eq_ok_iff hkeyed).mpr ⟨hfree, rfl⟩, hinsert, ?_⟩
  rw [← hinsert.get?_eq_lookup, ← hkeyed.get?_eq_lookup]
  exact SortedMap.get?_insert ..

theorem removeTable_eq_ok (hkeyed : schema.Keyed) {name : String}
    (hfound : lookup schema.tableList (lowerCase name) = some table) :
    ∃ edited, schema.removeTable name = .ok (table, edited) ∧ edited.Keyed ∧
      lookup edited.tableList =
        Function.update (lookup schema.tableList) (lowerCase name) none := by
  have herase := hkeyed.erase (lowerCase name)
  refine ⟨{ schema with tables := schema.tables.erase (lowerCase name) }, ?_, herase, ?_⟩
  · unfold removeTable table?
    rw [hkeyed.get?_eq_lookup, hfound]
  · rw [← herase.get?_eq_lookup, ← hkeyed.get?_eq_lookup]
    exact SortedMap.get?_erase ..

/-! ## Schemas as they are built -/

/-- The schemas that adding tables leads to. -/
inductive Built : Schema → Prop
  | new (name : Option String) : Built { name }
  | addTable {schema edited : Schema} {table : Table} (hbuilt : schema.Built)
      (htable : table.Built) (hok : schema.addTable table = .ok edited) : Built edited

structure WellFormed (schema : Schema) : Prop where
  keyed : schema.Keyed
  tables : ∀ table ∈ schema.tableList, table.WellFormed

theorem WellFormed.addTable (h : schema.WellFormed) (htable : table.WellFormed)
    (hok : schema.addTable table = .ok edited) : edited.WellFormed := by
  obtain ⟨_, rfl⟩ := (addTable_eq_ok_iff h.keyed).mp hok
  exact ⟨h.keyed.insert table, forall_tableList_insert h.tables htable _⟩

theorem Built.wellFormed (h : schema.Built) : schema.WellFormed := by
  induction h with
  | new name =>
      constructor
      · intro entry hentry
        cases hentry
      · intro table htable
        cases htable
  | addTable _ htable hok ih => exact ih.addTable htable.wellFormed hok

end Schema

/-! ## Small schemas -/

def Table.ofColumn (table column : String) : Table where
  name := table
  columns := [{ name := column, kind := .integer, typeName := "integer" }]

theorem Table.ofColumn_built (table column : String) : (ofColumn table column).Built := by
  refine .addColumn (.new table) (addColumn_eq_ok_iff.mpr ⟨rfl, ?_, rfl⟩)
  intro hkind
  cases hkind

def Schema.ofTable (table : Table) : Schema where
  tables := SortedMap.empty.insert (key table) table

theorem Schema.ofTable_built {table : Table} (h : table.Built) : (ofTable table).Built :=
  .addTable (.new none) h rfl

def Schema.ofTables (tables : List Table) : Schema where
  tables := tables.foldr (fun table map => map.insert (key table) table) .empty

theorem Schema.ofTables_built {tables : List Table} (htables : ∀ table ∈ tables, table.Built)
    (hdistinct : Distinct tables) : (ofTables tables).Built := by
  suffices (ofTables tables).Built ∧ lookup (ofTables tables).tableList = lookup tables from
    this.1
  induction tables with
  | nil => exact ⟨.new none, rfl⟩
  | cons table tables ih =>
      obtain ⟨hfree, hrest⟩ := distinct_cons.mp hdistinct
      obtain ⟨hbuilt, hlookup⟩ :=
        ih (fun other hother => htables other (List.mem_cons_of_mem _ hother)) hrest
      have hkeyed := hbuilt.wellFormed.keyed
      rw [← hlookup] at hfree
      obtain ⟨edited, hadd, _, hedited⟩ := addTable_eq_ok hkeyed hfree
      obtain rfl : edited = ofTables (table :: tables) := ((addTable_eq_ok_iff hkeyed).mp hadd).2
      refine ⟨.addTable hbuilt (htables table List.mem_cons_self) hadd, ?_⟩
      rw [hedited, hlookup, lookup_cons]

/-- Tables that nothing but their names tells apart. -/
def Schema.ofNames (names : List String) : Schema :=
  ofTables (names.map fun name => .ofColumn name "id")

theorem Schema.ofNames_built (names : List String) (h : (names.map lowerCase).Nodup) :
    (ofNames names).Built := by
  refine ofTables_built ?_ ?_
  · rw [List.forall_mem_map]
    exact fun name _ => Table.ofColumn_built name "id"
  · rw [distinct_iff_nodup, List.map_map]
    exact h

end SchemaDelta
