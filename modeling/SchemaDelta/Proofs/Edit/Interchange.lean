import SchemaDelta.Edit
import SchemaDelta.Proofs.Edit.Session
import SchemaDelta.Proofs.Named.Order

/-!
# Additions in any order

Keys that can be added to a table one behind the other can be added in any order, and so can
tables to a schema.  A key wants a place that is free and columns that exist, and the keys that
are there already matter to it only if they have its place.  What it becomes depends on the
names of the columns, which no key changes.
-/

namespace SchemaDelta

open Named

/-- Where two steps can always trade their places, all items of a fold can. -/
theorem foldlM_perm {ε α β : Type} {step : β → α → Except ε β} {P : β → Prop}
    (hkeeps : ∀ b item c, P b → step b item = .ok c → P c)
    (hinterchange : ∀ b first middle second c, P b → step b first = .ok middle →
      step middle second = .ok c →
        ∃ other, step b second = .ok other ∧ step other first = .ok c)
    {items others : List α} (hperm : items.Perm others) {b c : β} (hb : P b)
    (hfold : items.foldlM step b = .ok c) : others.foldlM step b = .ok c := by
  induction hperm generalizing b with
  | nil => exact hfold
  | cons item _ ih =>
      rw [List.foldlM_cons] at hfold ⊢
      obtain ⟨middle, hstep, hrest⟩ := bind_eq_ok_iff.mp hfold
      exact bind_eq_ok_iff.mpr ⟨middle, hstep, ih (hkeeps b item middle hb hstep) hrest⟩
  | swap first second rest =>
      simp only [List.foldlM_cons] at hfold ⊢
      obtain ⟨middle, hsecond, hfold⟩ := bind_eq_ok_iff.mp hfold
      obtain ⟨after, hfirst, hrest⟩ := bind_eq_ok_iff.mp hfold
      obtain ⟨other, hfirst', hsecond'⟩ :=
        hinterchange b second middle first after hb hsecond hfirst
      exact bind_eq_ok_iff.mpr ⟨other, hfirst', bind_eq_ok_iff.mpr ⟨after, hsecond', hrest⟩⟩
  | trans _ _ ihfirst ihsecond => exact ihsecond hb (ihfirst hb hfold)

/-! ## Keys -/

/-- A key that is to be added to a table. -/
inductive KeyAddition
  | primaryKey (columns : List String)
  | index (index : Index)
  | foreignKey (foreignKey : ForeignKey)

/-- What can be taken by one key of a table at most. -/
inductive KeyPlace
  | primaryKey
  | index (key : String)
  | foreignKey (key : String)

namespace KeyAddition

def columns : KeyAddition → List String
  | primaryKey columns => columns
  | index item => item.columns
  | foreignKey item => item.columns

def withColumns (columns : List String) : KeyAddition → KeyAddition
  | primaryKey _ => primaryKey columns
  | index item => index { item with columns }
  | foreignKey item => foreignKey { item with columns }

def place : KeyAddition → KeyPlace
  | primaryKey _ => .primaryKey
  | index item => .index (key item)
  | foreignKey item => .foreignKey (key item)

/-- An index of the primary kind is the primary key. -/
def canonical : KeyAddition → KeyAddition
  | index item => if item.isPrimary then primaryKey item.columns else index item
  | addition => addition

theorem place_withColumns (columns : List String) (addition : KeyAddition) :
    (addition.withColumns columns).place = addition.place := by
  cases addition <;> rfl

/-- A foreign key refers to as many columns as it has. -/
def Balanced : KeyAddition → Prop
  | foreignKey item => item.columns.length = item.referencedColumns.length
  | _ => True

end KeyAddition

namespace Table

variable {table edited : Table}

def addKey (table : Table) : KeyAddition → Except SchemaError Table
  | .primaryKey columns => table.setPrimaryKey columns
  | .index index => table.addIndex index
  | .foreignKey foreignKey => table.addForeignKey foreignKey

/-- Adds keys in order, and fails at the first one that fails. -/
def addKeys (table : Table) (additions : List KeyAddition) : Except SchemaError Table :=
  additions.foldlM addKey table

theorem Coherent.addKey (h : table.Coherent) {addition : KeyAddition}
    (hok : table.addKey addition = .ok edited) : edited.Coherent := by
  cases addition with
  | primaryKey columns => exact h.setPrimaryKey hok
  | index index => exact h.addIndex hok
  | foreignKey foreignKey => exact h.addForeignKey hok

/-! ### Names of columns -/

/-- The names as the columns of the table spell them. -/
def asDeclared (table : Table) (names : List String) : List String :=
  names.map fun name => ((table.column? name).map (·.name)).getD name

theorem resolveColumns_eq_ok_iff_asDeclared {owner : KeyOwner} {names resolved : List String} :
    table.resolveColumns owner names = .ok resolved ↔
      table.Declares names ∧ resolved = table.asDeclared names := by
  have hspelling : ∀ {resolved}, table.resolveColumns owner names = .ok resolved →
      resolved = table.asDeclared names := by
    intro resolved hresolve
    rw [resolveColumns_eq_ok_iff] at hresolve
    induction hresolve with
    | nil => rfl
    | cons hname _ ih => simp [asDeclared, hname, ih]
  constructor
  · intro hresolve
    refine ⟨fun name hname hnone => ?_, hspelling hresolve⟩
    have hdeclared := (spells_of_resolve hresolve).declares
    have hsame : lowerCase name ∈ resolved.map lowerCase :=
      sameNames_of_resolve hresolve ▸ List.mem_map_of_mem hname
    obtain ⟨spelled, hspelled, heq⟩ := List.mem_map.mp hsame
    exact hdeclared spelled hspelled (heq ▸ hnone)
  · rintro ⟨hdeclares, rfl⟩
    obtain ⟨resolved, hresolve⟩ := hdeclares.resolve owner
    rw [hresolve, hspelling hresolve]

section SameNames

variable (h : edited.columns.map (·.name) = table.columns.map (·.name))

include h

theorem name_column?_congr (name : String) :
    (edited.column? name).map (·.name) = (table.column? name).map (·.name) := by
  have hfind : ∀ table : Table, (table.column? name).map (·.name)
      = (table.columns.map (·.name)).find? (sameName · name) := by
    intro table
    rw [List.find?_map]
    rfl
  rw [hfind, hfind, h]

theorem asDeclared_congr (names : List String) :
    edited.asDeclared names = table.asDeclared names := by
  unfold asDeclared
  simp only [name_column?_congr h]

theorem declares_congr (names : List String) :
    edited.Declares names ↔ table.Declares names := by
  refine forall₂_congr fun name _ => not_congr ?_
  have hname := name_column?_congr h name
  rw [column?, column?, find?_eq_lookup, find?_eq_lookup] at hname
  rw [← Option.map_eq_none_iff (f := Column.name), hname, Option.map_eq_none_iff]

end SameNames

/-! ### What adding a key takes, and what it does -/

def Free (table : Table) : KeyPlace → Prop
  | .primaryKey => table.primaryKey = none
  | .index key => lookup table.indexes key = none ∧ key ≠ Index.primaryKey
  | .foreignKey key => lookup table.foreignKeys key = none

structure Admits (table : Table) (addition : KeyAddition) : Prop where
  free : table.Free addition.place
  balanced : addition.Balanced
  declared : table.Declares addition.columns

/-- Puts a key into the table whose columns are spelled like those of the table. -/
def putKey (table : Table) : KeyAddition → Table
  | .primaryKey columns =>
      { table with
        columns := requireValues columns table.columns
        primaryKey := some (.primary columns) }
  | .index index => { table with indexes := Named.insert index table.indexes }
  | .foreignKey foreignKey =>
      { table with foreignKeys := Named.insert foreignKey table.foreignKeys }

/-- The table with a key that it admits. -/
def withKey (table : Table) (addition : KeyAddition) : Table :=
  table.putKey (addition.withColumns (table.asDeclared addition.columns))

theorem addKey_eq_ok_iff (h : table.Coherent) {addition : KeyAddition} :
    table.addKey addition = .ok edited ↔
      table.Admits addition.canonical ∧ edited = table.withKey addition.canonical := by
  have hprimary : ∀ {columns : List String}, table.setPrimaryKey columns = .ok edited ↔
      table.Admits (.primaryKey columns) ∧ edited = table.withKey (.primaryKey columns) := by
    intro columns
    simp only [setPrimaryKey_eq_ok_iff, resolveColumns_eq_ok_iff_asDeclared]
    constructor
    · rintro ⟨hfree, _, ⟨hdeclared, rfl⟩, rfl⟩
      exact ⟨⟨hfree, trivial, hdeclared⟩, rfl⟩
    · rintro ⟨hadmits, rfl⟩
      exact ⟨hadmits.free, _, ⟨hadmits.declared, rfl⟩, rfl⟩
  cases addition with
  | primaryKey columns => exact hprimary
  | index index =>
      cases hkind : index.isPrimary with
      | true =>
          rw [addKey, addIndex_primary hkind, KeyAddition.canonical, if_pos hkind]
          exact hprimary
      | false =>
          rw [addKey, KeyAddition.canonical, if_neg (by simp [hkind])]
          simp only [addIndex_eq_ok_iff hkind, resolveColumns_eq_ok_iff_asDeclared]
          constructor
          · rintro ⟨hfree, hname, _, ⟨hdeclared, rfl⟩, rfl⟩
            exact ⟨⟨⟨(h.lookup_secondary hname).symm.trans hfree, hname⟩, trivial, hdeclared⟩, rfl⟩
          · rintro ⟨⟨⟨hfree, hname⟩, -, hdeclared⟩, rfl⟩
            exact ⟨(h.lookup_secondary hname).trans hfree, hname, _, ⟨hdeclared, rfl⟩, rfl⟩
  | foreignKey foreignKey =>
      simp only [addKey, addForeignKey_eq_ok_iff, resolveColumns_eq_ok_iff_asDeclared]
      constructor
      · rintro ⟨hfree, hbalanced, _, ⟨hdeclared, rfl⟩, rfl⟩
        exact ⟨⟨hfree, hbalanced, hdeclared⟩, rfl⟩
      · rintro ⟨⟨hfree, hbalanced, hdeclared⟩, rfl⟩
        exact ⟨hfree, hbalanced, _, ⟨hdeclared, rfl⟩, rfl⟩

theorem columnNames_withKey (table : Table) (addition : KeyAddition) :
    (table.withKey addition).columns.map (·.name) = table.columns.map (·.name) := by
  cases addition with
  | primaryKey columns => exact requireValues_map_name _ _
  | index index => rfl
  | foreignKey foreignKey => rfl

/-! ### Trading places -/

/-- A key that is added takes its own place and no other one. -/
theorem free_putKey_iff {addition : KeyAddition} {place : KeyPlace} :
    (table.putKey addition).Free place ↔ table.Free place ∧ place ≠ addition.place := by
  cases addition <;> cases place <;>
    simp [Free, putKey, KeyAddition.place, lookup_insert_eq_none_iff, and_right_comm]

theorem admits_withKey_iff {first second : KeyAddition} :
    (table.withKey first).Admits second ↔ table.Admits second ∧ second.place ≠ first.place := by
  have hdeclared := declares_congr (columnNames_withKey table first) second.columns
  constructor
  · rintro ⟨hfree, hbalanced, hcolumns⟩
    rw [withKey, free_putKey_iff, KeyAddition.place_withColumns] at hfree
    obtain ⟨hfree, hne⟩ := hfree
    exact ⟨⟨hfree, hbalanced, hdeclared.mp hcolumns⟩, hne⟩
  · rintro ⟨⟨hfree, hbalanced, hcolumns⟩, hne⟩
    refine ⟨?_, hbalanced, hdeclared.mpr hcolumns⟩
    rw [withKey, free_putKey_iff, KeyAddition.place_withColumns]
    exact ⟨hfree, hne⟩

/-- Keys whose columns are resolved come to stand in places of their own. -/
theorem putKey_comm (h : table.Coherent) {first second : KeyAddition}
    (hfirst : table.Free first.place) (hsecond : table.Free second.place)
    (hne : first.place ≠ second.place) :
    (table.putKey first).putKey second = (table.putKey second).putKey first := by
  cases first <;> cases second
  case primaryKey.primaryKey => exact absurd rfl hne
  case index.index first second =>
    have hkeys : key first ≠ key second := fun heq => hne (congrArg KeyPlace.index heq)
    simp only [putKey, h.indexes.insert_comm hfirst.1 hsecond.1 hkeys]
  case foreignKey.foreignKey first second =>
    have hkeys : key first ≠ key second := fun heq => hne (congrArg KeyPlace.foreignKey heq)
    simp only [putKey, h.foreignKeys.insert_comm hfirst hsecond hkeys]
  all_goals rfl

theorem withKey_comm (h : table.Coherent) {first second : KeyAddition}
    (hfirst : table.Admits first) (hsecond : table.Admits second)
    (hne : first.place ≠ second.place) :
    (table.withKey first).withKey second = (table.withKey second).withKey first := by
  have hwithKey : ∀ first second, (table.withKey first).withKey second =
      (table.withKey first).putKey (second.withColumns (table.asDeclared second.columns)) := by
    intro first second
    rw [withKey, asDeclared_congr (columnNames_withKey table first)]
  rw [hwithKey, hwithKey]
  refine putKey_comm h ?_ ?_ ?_ <;> simp only [KeyAddition.place_withColumns]
  · exact hfirst.free
  · exact hsecond.free
  · exact hne

theorem addKey_interchange (h : table.Coherent) {first second : KeyAddition} {middle : Table}
    (hfirst : table.addKey first = .ok middle) (hsecond : middle.addKey second = .ok edited) :
    ∃ other, table.addKey second = .ok other ∧ other.addKey first = .ok edited := by
  have hmiddle := h.addKey hfirst
  obtain ⟨hadmits, rfl⟩ := (addKey_eq_ok_iff h).mp hfirst
  obtain ⟨hadmits', rfl⟩ := (addKey_eq_ok_iff hmiddle).mp hsecond
  obtain ⟨hadmits', hne⟩ := admits_withKey_iff.mp hadmits'
  have hother : table.addKey second = .ok (table.withKey second.canonical) :=
    (addKey_eq_ok_iff h).mpr ⟨hadmits', rfl⟩
  refine ⟨_, hother, (addKey_eq_ok_iff (h.addKey hother)).mpr ⟨?_, ?_⟩⟩
  · exact admits_withKey_iff.mpr ⟨hadmits, hne.symm⟩
  · exact withKey_comm h hadmits hadmits' hne.symm

theorem addKeys_perm (h : table.Coherent) {additions others : List KeyAddition}
    (hperm : additions.Perm others) (hok : table.addKeys additions = .ok edited) :
    table.addKeys others = .ok edited := by
  refine foldlM_perm (P := Coherent) ?_ ?_ hperm h hok
  · exact fun _ _ _ hcoherent => hcoherent.addKey
  · exact fun _ _ _ _ _ hcoherent => addKey_interchange hcoherent

end Table

/-! ## Tables -/

namespace Schema

variable {schema edited : Schema}

theorem addTable_eq_ok_iff_insert {table : Table} :
    schema.addTable table = .ok edited ↔
      schema.tables.get? (key table) = none ∧
        edited = { schema with tables := schema.tables.insert (key table) table } := by
  unfold addTable
  rw [SortedMap.contains_eq_isSome]
  cases schema.tables.get? (key table) <;> simp [eq_comm]

theorem addTable_interchange {first second : Table} {middle : Schema}
    (hfirst : schema.addTable first = .ok middle) (hsecond : middle.addTable second = .ok edited) :
    ∃ other, schema.addTable second = .ok other ∧ other.addTable first = .ok edited := by
  obtain ⟨hfree, rfl⟩ := addTable_eq_ok_iff_insert.mp hfirst
  obtain ⟨hfree', rfl⟩ := addTable_eq_ok_iff_insert.mp hsecond
  obtain ⟨hfree', hne⟩ := SortedMap.get?_insert_eq_none_iff.mp hfree'
  refine ⟨_, addTable_eq_ok_iff_insert.mpr ⟨hfree', rfl⟩, addTable_eq_ok_iff_insert.mpr ⟨?_, ?_⟩⟩
  · exact SortedMap.get?_insert_eq_none_iff.mpr ⟨hfree, hne.symm⟩
  · rw [SortedMap.insert_comm _ hne]

theorem addTables_perm {tables others : List Table} (hperm : tables.Perm others)
    (hok : schema.addTables tables = .ok edited) : schema.addTables others = .ok edited := by
  refine foldlM_perm (P := fun _ => True) ?_ ?_ hperm trivial hok
  · exact fun _ _ _ _ _ => trivial
  · exact fun _ _ _ _ _ _ => addTable_interchange

end Schema

/-- Keys that calls have made room for in a table can be added in any order, and tables can be
added to a schema in any order.  What comes out is the same to the last detail. -/
theorem additions_interchange :
    (∀ (name : String) (calls : List TableCall) (additions others : List KeyAddition)
      (edited : Table), (Table.after { name } calls).addKeys additions = .ok edited →
        additions.Perm others → (Table.after { name } calls).addKeys others = .ok edited) ∧
      ∀ (schema edited : Schema) (tables others : List Table),
        schema.addTables tables = .ok edited → tables.Perm others →
          schema.addTables others = .ok edited := by
  refine ⟨fun name calls additions others edited hok hperm => ?_,
    fun schema edited tables others hok hperm => Schema.addTables_perm hperm hok⟩
  exact Table.addKeys_perm ((Table.Valid.new name).after calls).toCoherent hperm hok

/-- The table of a single column, without keys. -/
def Table.unkeyed : Table :=
  after { name := "t" } [.addColumn { name := "id", kind := .integer, typeName := "integer" }]

/-- The same table with a primary key and two indexes. -/
def Table.keyed : Table where
  name := "t"
  columns := [{ name := "id", kind := .integer, typeName := "integer", nullable := false }]
  primaryKey := some (.primary ["id"])
  indexes := [⟨"A", .unique, ["id"]⟩, ⟨"b", .plain, ["id"]⟩]

/-- Each key spells the column in a way of its own. -/
theorem additions_interchange_spellings :
    Table.unkeyed.addKeys
        [.index ⟨"b", .plain, ["ID"]⟩, .primaryKey ["Id"], .index ⟨"A", .unique, ["iD"]⟩]
      = .ok .keyed ∧
    Table.unkeyed.addKeys
        [.primaryKey ["Id"], .index ⟨"b", .plain, ["ID"]⟩, .index ⟨"A", .unique, ["iD"]⟩]
      = .ok .keyed ∧
    Schema.addTables {} [.ofColumn "b" "id", .ofColumn "A" "id"] = .ok (.ofNames ["A", "b"]) ∧
    Schema.addTables {} [.ofColumn "A" "id", .ofColumn "b" "id"] = .ok (.ofNames ["A", "b"]) := by
  refine ⟨by decide, ?_, by decide +kernel, ?_⟩
  · exact additions_interchange.1 "t" _ _ _ _ (by decide) (.swap _ _ _)
  · exact additions_interchange.2 _ _ _ _ (by decide) (.swap _ _ _)

end SchemaDelta
