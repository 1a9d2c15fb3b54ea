import Mathlib.Data.List.Pairwise
import Mathlib.Data.List.TakeWhile
import Mathlib.Logic.Function.Basic
import SchemaDelta.Name

/-!
# Lists of named things as partial maps

A list whose items have distinct keys is, as far as names go, a partial map from
keys to items.  What the operations on such lists do is said about this map:
insertion, removal and replacement change it at the keys concerned, and the
order of the items does not matter to it.
-/

namespace SchemaDelta.Named

variable {α : Type} [Named α]

/-- The item of a key. -/
def lookup (items : List α) (wanted : String) : Option α :=
  items.find? fun item => key item == wanted

def Distinct (items : List α) : Prop :=
  items.Pairwise fun a b => key a ≠ key b

def Ascending (items : List α) : Prop :=
  items.Pairwise fun a b => key a < key b

theorem Ascending.distinct {items : List α} (h : Ascending items) : Distinct items := by
  refine List.Pairwise.imp ?_ h
  intro a b hlt heq
  rw [heq] at hlt
  exact String.lt_irrefl (key b) hlt

theorem distinct_iff_nodup {items : List α} :
    Distinct items ↔ (items.map key).Nodup := by
  simp [Distinct, List.Nodup, List.pairwise_map]

theorem Distinct.perm {items others : List α} (h : Distinct items) (hperm : items.Perm others) :
    Distinct others :=
  (hperm.pairwise_iff fun hab => hab.symm).mp h

theorem Distinct.sublist {items others : List α} (h : Distinct items)
    (hsub : others.Sublist items) : Distinct others :=
  List.Pairwise.sublist hsub h

theorem Distinct.eq_of_key_eq {items : List α} (h : Distinct items) {a b : α}
    (ha : a ∈ items) (hb : b ∈ items) (hkey : key a = key b) : a = b := by
  by_contra hne
  have : Std.Symm fun a b : α => key a ≠ key b := ⟨fun _ _ hab => hab.symm⟩
  exact List.Pairwise.forall h ha hb hne hkey

/-! ## Looking up -/

theorem find?_eq_lookup (wanted : String) (items : List α) :
    find? wanted items = lookup items (lowerCase wanted) := rfl

theorem contains_eq_isSome (wanted : String) (items : List α) :
    contains wanted items = (lookup items (lowerCase wanted)).isSome :=
  List.isSome_find?.symm

@[simp] theorem lookup_nil (wanted : String) : lookup ([] : List α) wanted = none := rfl

theorem lookup_cons (item : α) (items : List α) :
    lookup (item :: items) = Function.update (lookup items) (key item) (some item) := by
  funext wanted
  by_cases h : key item = wanted
  · subst wanted
    simp [lookup]
  · rw [Function.update_of_ne (Ne.symm h)]
    simp [lookup, h]

theorem lookup_append (items others : List α) (wanted : String) :
    lookup (items ++ others) wanted = (lookup items wanted).or (lookup others wanted) :=
  List.find?_append

theorem mem_of_lookup {items : List α} {wanted : String} {item : α}
    (h : lookup items wanted = some item) : item ∈ items ∧ key item = wanted :=
  ⟨List.mem_of_find?_eq_some h, by simpa using List.find?_some h⟩

theorem lookup_eq_none_iff {items : List α} {wanted : String} :
    lookup items wanted = none ↔ ∀ item ∈ items, key item ≠ wanted := by
  simp [lookup, List.find?_eq_none]

theorem lookup_eq_some_iff {items : List α} (hdistinct : Distinct items) {wanted : String}
    {item : α} : lookup items wanted = some item ↔ item ∈ items ∧ key item = wanted := by
  refine ⟨mem_of_lookup, fun ⟨hmem, hkey⟩ => ?_⟩
  cases hfound : lookup items wanted with
  | none => exact absurd hkey (lookup_eq_none_iff.mp hfound item hmem)
  | some other =>
      obtain ⟨hother, hotherKey⟩ := mem_of_lookup hfound
      rw [hdistinct.eq_of_key_eq hother hmem (hotherKey.trans hkey.symm)]

theorem lookup_key {items : List α} (hdistinct : Distinct items) {item : α}
    (hmem : item ∈ items) : lookup items (key item) = some item :=
  (lookup_eq_some_iff hdistinct).mpr ⟨hmem, rfl⟩

theorem lookup_isSome_iff {items : List α} {wanted : String} :
    (lookup items wanted).isSome = true ↔ ∃ item ∈ items, key item = wanted := by
  simp [lookup, List.find?_isSome]

theorem lookup_perm {items others : List α} (hdistinct : Distinct items)
    (hperm : items.Perm others) : lookup items = lookup others := by
  funext wanted
  have hothers := hdistinct.perm hperm
  apply Option.ext
  intro item
  rw [lookup_eq_some_iff hdistinct, lookup_eq_some_iff hothers, hperm.mem_iff]

section Map

variable {β : Type} [Named β] {f : α → β} (hkey : ∀ item, key (f item) = key item)

include hkey

theorem lookup_map (items : List α) (wanted : String) :
    lookup (items.map f) wanted = (lookup items wanted).map f := by
  unfold lookup
  rw [List.find?_map]
  congr 2
  funext item
  rw [Function.comp_apply, hkey]

theorem distinct_map {items : List α} : Distinct (items.map f) ↔ Distinct items := by
  simp [Distinct, List.pairwise_map, hkey]

theorem sort_map (items : List α) : sort (items.map f) = (sort items).map f := by
  unfold sort
  refine (List.map_mergeSort fun a _ b _ => ?_).symm
  rw [hkey, hkey]

end Map

/-! ## Sorted insertion -/

theorem insert_perm (item : α) (items : List α) : (insert item items).Perm (item :: items) := by
  unfold insert
  refine List.perm_middle.trans ?_
  rw [List.takeWhile_append_dropWhile]

theorem distinct_cons {item : α} {items : List α} :
    Distinct (item :: items) ↔ lookup items (key item) = none ∧ Distinct items := by
  rw [Distinct, List.pairwise_cons, lookup_eq_none_iff]
  exact and_congr_left fun _ => forall₂_congr fun _ _ => ne_comm

theorem lookup_insert {item : α} {items : List α} (hdistinct : Distinct items)
    (habsent : lookup items (key item) = none) :
    lookup (insert item items) = Function.update (lookup items) (key item) (some item) := by
  have hcons : Distinct (item :: items) := distinct_cons.mpr ⟨habsent, hdistinct⟩
  rw [← lookup_perm hcons (insert_perm item items).symm, lookup_cons]

theorem lookup_insert_eq_none_iff {item : α} {items : List α} {wanted : String} :
    lookup (insert item items) wanted = none ↔
      lookup items wanted = none ∧ wanted ≠ key item := by
  simp only [lookup_eq_none_iff, (insert_perm item items).mem_iff, List.forall_mem_cons]
  exact and_comm.trans (and_congr_right fun _ => ne_comm)

/-- Behind the items that are smaller than an absent key, all are greater. -/
theorem Ascending.lt_of_mem_dropWhile {items : List α} (h : Ascending items) {item other : α}
    (habsent : lookup items (key item) = none)
    (hmem : other ∈ items.dropWhile fun x => key x < key item) : key item < key other := by
  induction items with
  | nil => simp at hmem
  | cons first rest ih =>
      obtain ⟨hfirst, hrest⟩ := List.pairwise_cons.mp h
      have hne : key first ≠ key item :=
        lookup_eq_none_iff.mp habsent first List.mem_cons_self
      have hrestAbsent : lookup rest (key item) = none :=
        lookup_eq_none_iff.mpr fun x hx =>
          lookup_eq_none_iff.mp habsent x (List.mem_cons_of_mem _ hx)
      by_cases hlt : key first < key item
      · rw [List.dropWhile_cons_of_pos (by simpa using hlt)] at hmem
        exact ih hrest hrestAbsent hmem
      · rw [List.dropWhile_cons_of_neg (by simpa using hlt)] at hmem
        have hgt : key item < key first :=
          Decidable.byContradiction fun h =>
            hne (String.le_antisymm (String.not_lt.mp h) (String.not_lt.mp hlt))
        rcases List.mem_cons.mp hmem with rfl | hmem
        · exact hgt
        · exact String.lt_trans hgt (hfirst other hmem)

theorem ascending_insert {item : α} {items : List α} (h : Ascending items)
    (habsent : lookup items (key item) = none) : Ascending (insert item items) := by
  have hsmaller : ∀ other ∈ items.takeWhile (fun x => key x < key item),
      key other < key item := fun other hmem => by
    simpa using List.mem_takeWhile_imp hmem
  have hgreater : ∀ other ∈ items.dropWhile (fun x => key x < key item),
      key item < key other := fun other hmem => h.lt_of_mem_dropWhile habsent hmem
  unfold insert Ascending
  rw [List.pairwise_append, List.pairwise_cons]
  refine ⟨List.Pairwise.sublist (List.takeWhile_sublist _) h,
    ⟨hgreater, List.Pairwise.sublist (List.dropWhile_sublist _) h⟩, ?_⟩
  intro a ha b hb
  rcases List.mem_cons.mp hb with rfl | hb
  · exact hsmaller a ha
  · exact String.lt_trans (hsmaller a ha) (hgreater b hb)

/-! ## Removal and replacement -/

theorem lookup_of_perm_cons {items others : List α} {old : α} (hdistinct : Distinct items)
    (hperm : items.Perm (old :: others)) :
    lookup others = Function.update (lookup items) (key old) none := by
  have hcons := hdistinct.perm hperm
  rw [lookup_perm hdistinct hperm, lookup_cons, Function.update_idem,
    ← (distinct_cons.mp hcons).1, Function.update_eq_self]

theorem erase_perm {items : List α} {name : String} {old : α}
    (hdistinct : Distinct items) (hfound : lookup items (lowerCase name) = some old) :
    items.Perm (old :: erase name items) := by
  have hold := mem_of_lookup hfound
  obtain ⟨found, front, back, _, hname, hitems, herase⟩ :=
    List.exists_of_eraseP (p := fun item => sameName (Named.name item) name) hold.1
      (sameName_iff.mpr hold.2)
  have hfoundMem : found ∈ items := by simp [hitems]
  have heq : found = old :=
    hdistinct.eq_of_key_eq hfoundMem hold.1 ((sameName_iff.mp hname).trans hold.2.symm)
  unfold erase
  rw [herase, hitems, heq]
  exact List.perm_middle

theorem lookup_erase {items : List α} {name : String} (hdistinct : Distinct items)
    (hfound : lookup items (lowerCase name) ≠ none) :
    lookup (erase name items) = Function.update (lookup items) (lowerCase name) none := by
  obtain ⟨old, hold⟩ := Option.ne_none_iff_exists'.mp hfound
  rw [lookup_of_perm_cons hdistinct (erase_perm hdistinct hold), (mem_of_lookup hold).2]

/-- The position of a name splits the list around the item found. -/
theorem exists_split_of_findIdx? {items : List α} {name : String} {position : Nat}
    (h : findIdx? name items = some position) :
    ∃ front old back, items = front ++ old :: back ∧ front.length = position ∧
      key old = lowerCase name := by
  obtain ⟨hlt, hname, _⟩ := List.findIdx?_eq_some_iff_getElem.mp h
  refine ⟨items.take position, items[position], items.drop (position + 1), ?_, ?_, ?_⟩
  · rw [← List.drop_eq_getElem_cons hlt, List.take_append_drop]
  · exact List.length_take_of_le (Nat.le_of_lt hlt)
  · exact sameName_iff.mp hname

theorem findIdx?_isSome (name : String) (items : List α) :
    (findIdx? name items).isSome = (lookup items (lowerCase name)).isSome := by
  unfold findIdx? lookup
  rw [List.findIdx?_isSome, List.isSome_find?]
  rfl

theorem lookup_around_eq_none {front back : List α} {old new : α}
    (hdistinct : Distinct (front ++ old :: back))
    (hnew : key new = key old ∨ lookup (front ++ old :: back) (key new) = none) :
    lookup (front ++ back) (key new) = none := by
  rw [lookup_of_perm_cons hdistinct List.perm_middle]
  by_cases hkey : key new = key old
  · rw [hkey, Function.update_self]
  · rw [Function.update_of_ne hkey]
    exact hnew.resolve_left hkey

theorem lookup_replace {front back : List α} {old new : α}
    (hdistinct : Distinct (front ++ old :: back))
    (hnew : key new = key old ∨ lookup (front ++ old :: back) (key new) = none) :
    Distinct (front ++ new :: back) ∧
      lookup (front ++ new :: back) =
        Function.update (Function.update (lookup (front ++ old :: back)) (key old) none)
          (key new) (some new) := by
  have hold : (front ++ old :: back).Perm (old :: (front ++ back)) := List.perm_middle
  have hrest := lookup_of_perm_cons hdistinct hold
  have habsent := lookup_around_eq_none hdistinct hnew
  have hcons : Distinct (new :: (front ++ back)) :=
    distinct_cons.mpr ⟨habsent, (distinct_cons.mp (hdistinct.perm hold)).2⟩
  have hperm : (new :: (front ++ back)).Perm (front ++ new :: back) := List.perm_middle.symm
  refine ⟨hcons.perm hperm, ?_⟩
  rw [← lookup_perm hcons hperm, lookup_cons, hrest]

end SchemaDelta.Named
