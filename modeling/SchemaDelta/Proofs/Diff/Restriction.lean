import SchemaDelta.Proofs.Diff.Conservation
import SchemaDelta.Proofs.Diff.Origin
import SchemaDelta.Proofs.Named.Order

/-!
# Differences of a part of the tables

Tables are left out of both sides before these are compared, and the mates are
paired afterwards.  A table that is left out can therefore leave its mate to another
one.  When each pair is kept or left out as a whole, this does not happen: the pairs
that are kept are found again, and the difference is the one of the whole schemas
without what is on the tables left out.
-/

namespace SchemaDelta

open Named

/-! ## Pairs -/

section PairOff

variable {α : Type} {mates : α → α → Bool} {removed added : List α}

/-- What is kept of a pairing. -/
def Pairing.restrict (pairing : Pairing α) (keep : α → Bool) : Pairing α where
  pairs := pairing.pairs.filter fun change => keep change.old
  removed := pairing.removed.filter keep
  added := pairing.added.filter keep

theorem pairOff_cons_alone {old : α} (h : ∀ new ∈ added, ¬mates old new = true) :
    pairOff mates (old :: removed) added =
      { pairOff mates removed added with
        removed := old :: (pairOff mates removed added).removed } := by
  rw [pairOff, List.find?_eq_none.mpr h]

/-- The first mate is taken out from between those that are none and the rest. -/
theorem pairOff_cons_pair {old new : α} {front back : List α}
    (hfront : ∀ other ∈ front, ¬mates old other = true) (hmates : mates old new = true) :
    pairOff mates (old :: removed) (front ++ new :: back) =
      { pairOff mates removed (front ++ back) with
        pairs := ⟨old, new⟩ :: (pairOff mates removed (front ++ back)).pairs } := by
  have hfound : (front ++ new :: back).find? (mates old) = some new := by
    refine List.find?_eq_some_iff_append.mpr ⟨hmates, front, back, rfl, ?_⟩
    simpa using hfront
  rw [pairOff, hfound, List.eraseP_append_right _ hfront, List.eraseP_cons_of_pos hmates]

/-- The pairing of what is kept is what is kept of the pairing, unless it splits a pair. -/
theorem pairOff_filter (keep : α → Bool)
    (hwhole : ∀ change ∈ (pairOff mates removed added).pairs,
      keep change.new = keep change.old) :
    pairOff mates (removed.filter keep) (added.filter keep) =
      (pairOff mates removed added).restrict keep := by
  have hkept : ∀ {old : α} {items : List α}, (∀ item ∈ items, ¬mates old item = true) →
      ∀ item ∈ items.filter keep, ¬mates old item = true :=
    fun h item hitem => h item (List.mem_filter.mp hitem).1
  induction removed generalizing added with
  | nil => rfl
  | cons old removed ih =>
      cases hfound : added.find? (mates old) with
      | none =>
          have hnone := List.find?_eq_none.mp hfound
          rw [pairOff_cons_alone hnone] at hwhole ⊢
          cases hkeep : keep old with
          | false => simpa [Pairing.restrict, hkeep] using ih hwhole
          | true =>
              rw [List.filter_cons_of_pos hkeep, pairOff_cons_alone (hkept hnone), ih hwhole]
              simp [Pairing.restrict, hkeep]
      | some new =>
          obtain ⟨hmates, front, back, rfl, hfront⟩ := List.find?_eq_some_iff_append.mp hfound
          have hfront : ∀ other ∈ front, ¬mates old other = true := by simpa using hfront
          rw [pairOff_cons_pair hfront hmates] at hwhole ⊢
          have hnew : keep new = keep old := hwhole ⟨old, new⟩ List.mem_cons_self
          have hrest := ih fun change hchange => hwhole change (List.mem_cons_of_mem _ hchange)
          rw [List.filter_append] at hrest ⊢
          -- the pair is kept or left out as a whole
          cases hkeep : keep old with
          | false => simpa [Pairing.restrict, hkeep, hnew] using hrest
          | true =>
              rw [List.filter_cons_of_pos hkeep, List.filter_cons_of_pos (hnew.trans hkeep),
                pairOff_cons_pair (hkept hfront) hmates, hrest]
              simp [Pairing.restrict, hkeep]

end PairOff

/-! ## Counterparts -/

section Keys

variable {α : Type} [Named α] {keep : α → Bool}

/-- Whether things of one name are kept or left out together. -/
def KeepsNames (keep : α → Bool) : Prop :=
  ∀ a b, key a = key b → keep a = keep b

variable (hkeep : KeepsNames keep)

include hkeep

theorem lookup_filter_key (items : List α) {item : α} (hitem : keep item = true) :
    lookup (items.filter keep) (key item) = lookup items (key item) := by
  induction items with
  | nil => rfl
  | cons other items ih =>
      rw [lookup_cons]
      cases hother : keep other with
      | true =>
          rw [List.filter_cons_of_pos hother, lookup_cons]
          rcases eq_or_ne (key item) (key other) with heq | hne
          · rw [heq, Function.update_self, Function.update_self]
          · rw [Function.update_of_ne hne, Function.update_of_ne hne, ih]
      | false =>
          have hne : key item ≠ key other := fun heq => by
            rw [← hkeep item other heq, hitem] at hother
            cases hother
          rw [List.filter_cons_of_neg (by simp [hother]), Function.update_of_ne hne, ih]

namespace Delta

theorem unmatched_filter (items others : List α) :
    unmatched (items.filter keep) (others.filter keep) = (unmatched items others).filter keep := by
  rw [unmatched, unmatched, List.filter_comm keep]
  refine List.filter_congr fun item hitem => ?_
  have hlookup := lookup_filter_key hkeep others (List.mem_filter.mp hitem).2
  simp only [contains_eq_isSome]
  exact congrArg (fun found => !found.isSome) hlookup

theorem altered_filter (same : α → α → Bool) (old new : List α) :
    altered same (old.filter keep) (new.filter keep) =
      (altered same old new).filter fun change => keep change.old := by
  rw [altered, altered, List.filter_comm]
  congr 1
  rw [matched, matched, List.filterMap_filter, List.filter_filterMap]
  refine List.filterMap_congr fun item _ => ?_
  cases hitem : keep item with
  | false => cases find? (Named.name item) new <;> simp [Option.filter, hitem]
  | true =>
      have hfound : find? (Named.name item) (new.filter keep) = find? (Named.name item) new := by
        rw [find?_eq_lookup, find?_eq_lookup]
        exact lookup_filter_key hkeep new hitem
      rw [if_pos rfl, hfound]
      cases find? (Named.name item) new <;> simp [Option.filter, hitem]

end Delta

end Keys

/-! ## Schemas -/

/-- A difference without what is on tables whose names pass the test. -/
def SchemaDiff.without (diff : SchemaDiff) (test : String → Bool) : SchemaDiff where
  added := diff.added.filter fun table => !test table.name
  removed := diff.removed.filter fun table => !test table.name
  changed := diff.changed.filter fun table => !test table.name

namespace Schema

theorem tableList_withoutTables (schema : Schema) (test : Table → Bool) :
    (schema.withoutTables test).tableList = schema.tableList.filter fun table => !test table := by
  rw [tableList, tableList, SortedMap.values, SortedMap.values, List.filter_map]
  rfl

variable {a b : Schema} {test : String → Bool}

theorem keepsNames_not (hnames : ∀ x y, sameName x y = true → test x = test y) :
    KeepsNames fun table : Table => !test table.name :=
  fun s t hkey => congrArg not (hnames s.name t.name (sameName_iff.mpr hkey))

section Whole

variable (hnames : ∀ x y, sameName x y = true → test x = test y)
  (hwhole : ∀ table ∈ (a.diff b).changed, ∀ new ∈ table.newName, test new = test table.name)

include hnames hwhole

theorem pairOff_withoutTables :
    pairOff Table.tablesMate
        (Delta.unmatched (a.withoutTables fun table => test table.name).tableList
          (b.withoutTables fun table => test table.name).tableList)
        (Delta.unmatched (b.withoutTables fun table => test table.name).tableList
          (a.withoutTables fun table => test table.name).tableList) =
      (pairOff Table.tablesMate (Delta.unmatched a.tableList b.tableList)
        (Delta.unmatched b.tableList a.tableList)).restrict fun table => !test table.name := by
  have hkeep := keepsNames_not hnames
  rw [tableList_withoutTables, tableList_withoutTables, Delta.unmatched_filter hkeep,
    Delta.unmatched_filter hkeep]
  refine pairOff_filter _ fun change hchange => ?_
  obtain ⟨hold, hnew⟩ := mem_of_mem_pairOff hchange
  have hchanged : change.old.diff change.new ∈ (a.diff b).changed := by
    rw [diff_changed]
    exact List.mem_map_of_mem (Delta.mem_sort.mpr (List.mem_append_right _ hchange))
  exact congrArg not (hwhole _ hchanged _ (newName_diff_of_mem_pairOff hold hnew))

theorem replacedTables_withoutTables (hdistinct : Distinct (replacedTables a b)) :
    replacedTables (a.withoutTables fun table => test table.name)
        (b.withoutTables fun table => test table.name) =
      (replacedTables a b).filter fun change => !test change.old.name := by
  rw [replacedTables, pairOff_withoutTables hnames hwhole, tableList_withoutTables,
    tableList_withoutTables, Delta.altered_filter (keepsNames_not hnames), Pairing.restrict,
    ← List.filter_append, sort_filter (hdistinct.perm (Delta.sort_perm _))]
  rfl

end Whole

/-- The difference does not depend on the tables that are left out of both sides,
provided none of them is renamed to or from one that is not. -/
theorem diff_withoutTables (ha : a.Built) (hb : b.Built)
    (hnames : ∀ x y, sameName x y = true → test x = test y)
    (hwhole : ∀ table ∈ (a.diff b).changed, ∀ new ∈ table.newName, test new = test table.name) :
    (a.withoutTables fun table => test table.name).diff
        (b.withoutTables fun table => test table.name) = (a.diff b).without test := by
  have hpairing := pairOff_withoutTables hnames hwhole
  have hadded := congrArg Pairing.added hpairing
  have hremoved := congrArg Pairing.removed hpairing
  have hchanged : ((a.withoutTables fun table => test table.name).diff
      (b.withoutTables fun table => test table.name)).changed =
        (a.diff b).changed.filter fun table => !test table.name := by
    have hdistinct := replacedTables_distinct ha.wellFormed.coherent hb.wellFormed.coherent
    rw [diff_changed, diff_changed, replacedTables_withoutTables hnames hwhole hdistinct,
      List.filter_map]
    rfl
  exact (SchemaDiff.mk.injEq ..).mpr ⟨hadded, hremoved, hchanged⟩

/-- Whether a name is one of some folded names. -/
def isAmong (names : List String) (name : String) : Bool :=
  names.contains (lowerCase name)

theorem isAmong_congr (names : List String) (x y : String) (h : sameName x y = true) :
    isAmong names x = isAmong names y := by
  rw [isAmong, isAmong, sameName_iff.mp h]

/-- Of two pairs and two tables that are added, a pair and a table are left. -/
theorem diff_withoutTables_among :
    ((ofNames ["a", "K"]).diff (ofNames ["c", "l", "M", "v"])).changed.map
        (fun table => (table.name, table.newName)) = [("a", some "c"), ("K", some "l")] ∧
      ((ofNames ["a", "K"]).withoutTables fun table => isAmong ["k", "l", "m"] table.name).diff
          ((ofNames ["c", "l", "M", "v"]).withoutTables fun table =>
            isAmong ["k", "l", "m"] table.name) =
        ((ofNames ["a", "K"]).diff (ofNames ["c", "l", "M", "v"])).without
          (isAmong ["k", "l", "m"]) := by
  have hchanged : ((ofNames ["a", "K"]).diff (ofNames ["c", "l", "M", "v"])).changed.map
      (fun table => (table.name, table.newName)) = [("a", some "c"), ("K", some "l")] := by
    cbv
  refine ⟨hchanged, diff_withoutTables (ofNames_built _ (by decide)) (ofNames_built _ (by decide))
    (isAmong_congr _) fun table htable new hnew => ?_⟩
  have hnames : (table.name, table.newName) ∈ [("a", some "c"), ("K", some "l")] :=
    hchanged ▸ List.mem_map_of_mem htable
  simp only [List.mem_cons, List.not_mem_nil, or_false, Prod.mk.injEq] at hnames
  rcases hnames with ⟨hname, hnewName⟩ | ⟨hname, hnewName⟩
  · rw [hname, Option.mem_unique hnew hnewName]
    decide
  · rw [hname, Option.mem_unique hnew hnewName]
    decide

/-- When a pair is split, the half that is kept goes with another table. -/
example :
    (((ofNames ["a", "k"]).diff (ofNames ["l", "v"])).without (isAmong ["k", "l"])).changed.map
        (·.newName) = [some "l"] ∧
      (((ofNames ["a", "k"]).withoutTables fun table => isAmong ["k", "l"] table.name).diff
        ((ofNames ["l", "v"]).withoutTables fun table =>
          isAmong ["k", "l"] table.name)).changed.map (·.newName) = [some "v"] := by
  constructor <;> cbv

end Schema

end SchemaDelta
