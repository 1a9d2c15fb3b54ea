import SchemaDelta.Proofs.Named.Plan

/-!
# Lists of named things that correspond

Two lists correspond when they have the same names and things of one name are
related, whatever the order of the lists.  For lists without doubles this is
agreement of the two partial maps.
-/

namespace SchemaDelta.Named

variable {α : Type} [Named α] {related : α → α → Prop} {items others : List α}

structure Correspond (related : α → α → Prop) (items others : List α) : Prop where
  names : ∀ k, k ∈ items.map key ↔ k ∈ others.map key
  related : ∀ item ∈ items, ∀ other ∈ others, key item = key other → related item other

theorem mem_map_key_iff {k : String} : k ∈ items.map key ↔ lookup items k ≠ none := by
  rw [List.mem_map, ← Option.isSome_iff_ne_none, lookup_isSome_iff]

theorem agree_iff_correspond (hitems : Distinct items) (hothers : Distinct others) :
    Agree related (lookup items) (lookup others) ↔ Correspond related items others := by
  constructor
  · intro hagree
    refine ⟨fun k => ?_, fun item hitem other hother hkey => ?_⟩
    · rw [mem_map_key_iff, mem_map_key_iff]
      exact hagree.ne_none_iff k
    · obtain ⟨found, hfound, hrelated⟩ := hagree.exists_of_eq_some (lookup_key hitems hitem)
      rw [hkey, lookup_key hothers hother, Option.some.injEq] at hfound
      exact hfound ▸ hrelated
  · intro hcorrespond k
    have hnames := hcorrespond.names k
    rw [mem_map_key_iff, mem_map_key_iff] at hnames
    cases hitem : lookup items k with
    | none =>
        rw [(not_iff_not.mp hnames).mp hitem]
        exact .none
    | some item =>
        obtain ⟨other, hother⟩ := Option.ne_none_iff_exists'.mp (hnames.mp (by simp [hitem]))
        rw [hother]
        obtain ⟨hitemMem, hitemKey⟩ := mem_of_lookup hitem
        obtain ⟨hotherMem, hotherKey⟩ := mem_of_lookup hother
        exact .some (hcorrespond.related item hitemMem other hotherMem
          (hitemKey.trans hotherKey.symm))

theorem Correspond.congr {related' : α → α → Prop}
    (h : ∀ item ∈ items, ∀ other ∈ others, key item = key other →
      (related item other ↔ related' item other)) :
    Correspond related items others ↔ Correspond related' items others :=
  ⟨fun hc => ⟨hc.names, fun item hitem other hother hkey =>
      (h item hitem other hother hkey).mp (hc.related item hitem other hother hkey)⟩,
    fun hc => ⟨hc.names, fun item hitem other hother hkey =>
      (h item hitem other hother hkey).mpr (hc.related item hitem other hother hkey)⟩⟩

end SchemaDelta.Named
