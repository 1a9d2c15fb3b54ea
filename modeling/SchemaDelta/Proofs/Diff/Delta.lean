import SchemaDelta.Diff.Delta
import SchemaDelta.Proofs.Named.Plan

/-!
# What a difference accounts for

A difference between two lists of named things leaves nothing out: an item that
it does not mention is the same on both sides.  It mentions nothing twice
either, so that it is a plan that leads from the old list to the new one, in
whatever order its changes are made.
-/

namespace SchemaDelta

open Named

variable {α β : Type}

/-! ## Pairing off -/

theorem pairOff_removed_perm (mates : α → α → Bool) (removed added : List α) :
    removed.Perm ((pairOff mates removed added).removed
      ++ (pairOff mates removed added).pairs.map (·.old)) := by
  induction removed generalizing added with
  | nil => simp [pairOff]
  | cons old removed ih =>
      rw [pairOff]
      split
      next new _ =>
        exact ((ih (added.eraseP (mates old))).cons old).trans List.perm_middle.symm
      next => exact (ih added).cons old

theorem pairOff_added_perm (mates : α → α → Bool) (removed added : List α) :
    added.Perm ((pairOff mates removed added).added
      ++ (pairOff mates removed added).pairs.map (·.new)) := by
  induction removed generalizing added with
  | nil => simp [pairOff]
  | cons old removed ih =>
      rw [pairOff]
      split
      next new hnew =>
        have hperm : added.Perm (new :: added.eraseP (mates old)) := by
          obtain ⟨hmates, front, back, rfl, hfront⟩ := List.find?_eq_some_iff_append.mp hnew
          rw [List.eraseP_append_right _ (by simpa using hfront),
            List.eraseP_cons_of_pos hmates]
          exact List.perm_middle
        exact hperm.trans (((ih _).cons new).trans List.perm_middle.symm)
      next => exact ih added

theorem mates_of_mem_pairOff {mates : α → α → Bool} {removed added : List α}
    {change : Change α} (h : change ∈ (pairOff mates removed added).pairs) :
    mates change.old change.new = true := by
  induction removed generalizing added with
  | nil => simp [pairOff] at h
  | cons old removed ih =>
      rw [pairOff] at h
      split at h
      next new hnew =>
        rcases List.mem_cons.mp h with rfl | h
        · exact List.find?_some hnew
        · exact ih h
      next => exact ih h

variable [Named α]

/-! ## Accounts -/

/-- What leads from `source` to `target`: items that go away, items that others
take the place of, and items that come.  Each change fits, no key goes or comes
twice, and everything else stays the `same`. -/
structure Account (same : α → α → Prop) (source target : String → Option α)
    (removed : List α) (replaced : List (Change α)) (added : List α) : Prop where
  removed_fits : ∀ item ∈ removed, source (key item) = some item ∧ target (key item) = none
  replaced_fits : ∀ change ∈ replaced,
    source (key change.old) = some change.old ∧ target (key change.new) = some change.new ∧
      (key change.new = key change.old ∨
        source (key change.new) = none ∧ target (key change.old) = none)
  added_fits : ∀ item ∈ added, source (key item) = none ∧ target (key item) = some item
  gone_distinct : Distinct (removed ++ replaced.map (·.old))
  come_distinct : Distinct (added ++ replaced.map (·.new))
  kept : ∀ k, lookup (removed ++ replaced.map (·.old)) k = none →
    lookup (added ++ replaced.map (·.new)) k = none → Option.Rel same (source k) (target k)

/-- A partial map without the keys of some items. -/
def without (source : String → Option α) (items : List α) : String → Option α :=
  fun k => if (lookup items k).isSome then none else source k

theorem without_of_mem {source : String → Option α} {items : List α} {item : α}
    (h : item ∈ items) : without source items (key item) = none :=
  if_pos (lookup_isSome_iff.mpr ⟨item, h, rfl⟩)

theorem without_of_lookup_eq_none {source : String → Option α} {items : List α} {k : String}
    (h : lookup items k = none) : without source items k = source k :=
  if_neg (by simp [h])

namespace Account

variable {same : α → α → Prop} {source target : String → Option α}
  {removed removed' added added' : List α} {replaced replaced' dropped : List (Change α)}

def moves (removed : List α) (replaced : List (Change α)) (added : List α) : List (Move α) :=
  removed.map (fun item => .drop (key item))
    ++ replaced.map (fun change => .replace (key change.old) change.new)
    ++ added.map .add

theorem moves_drop (removed : List α) :
    moves removed [] [] = removed.map fun item => .drop (key item) := by
  simp [moves]

theorem moves_restore (replaced : List (Change α)) (added : List α) :
    moves [] replaced added =
      replaced.map (fun change => .replace (key change.old) change.new) ++ added.map .add := by
  simp [moves]

theorem perm (h : Account same source target removed replaced added)
    (hremoved : removed.Perm removed') (hreplaced : replaced.Perm replaced')
    (hadded : added.Perm added') : Account same source target removed' replaced' added' := by
  have hgone := hremoved.append (hreplaced.map (·.old))
  have hcome := hadded.append (hreplaced.map (·.new))
  refine ⟨fun item hitem => h.removed_fits item (hremoved.mem_iff.mpr hitem),
    fun change hchange => h.replaced_fits change (hreplaced.mem_iff.mpr hchange),
    fun item hitem => h.added_fits item (hadded.mem_iff.mpr hitem),
    h.gone_distinct.perm hgone, h.come_distinct.perm hcome, ?_⟩
  rw [← lookup_perm h.gone_distinct hgone, ← lookup_perm h.come_distinct hcome]
  exact h.kept

section Apart

variable (h : Account same source target removed replaced added)

include h

theorem removed_ne_old {item : α} {change : Change α} (hitem : item ∈ removed)
    (hchange : change ∈ replaced) : key item ≠ key change.old :=
  (List.pairwise_append.mp h.gone_distinct).2.2 item hitem change.old
    (List.mem_map_of_mem hchange)

theorem added_ne_new {item : α} {change : Change α} (hitem : item ∈ added)
    (hchange : change ∈ replaced) : key item ≠ key change.new :=
  (List.pairwise_append.mp h.come_distinct).2.2 item hitem change.new
    (List.mem_map_of_mem hchange)

theorem removed_ne_new {item : α} {change : Change α} (hitem : item ∈ removed)
    (hchange : change ∈ replaced) : key item ≠ key change.new := by
  intro heq
  have hnone := (h.removed_fits item hitem).2
  rw [heq, (h.replaced_fits change hchange).2.1] at hnone
  cases hnone

theorem removed_ne_added {item other : α} (hitem : item ∈ removed) (hother : other ∈ added) :
    key item ≠ key other := by
  intro heq
  have hnone := (h.removed_fits item hitem).2
  rw [heq, (h.added_fits other hother).2] at hnone
  cases hnone

theorem added_ne_old {item : α} {change : Change α} (hitem : item ∈ added)
    (hchange : change ∈ replaced) : key item ≠ key change.old := by
  intro heq
  have hnone := (h.added_fits item hitem).1
  rw [heq, (h.replaced_fits change hchange).1] at hnone
  cases hnone

/-- The key that one change puts an item at is not the one that another change
takes an item from. -/
theorem old_ne_new {first second : Change α} (hfirst : first ∈ replaced)
    (hsecond : second ∈ replaced) (hne : key first.old ≠ key second.old) :
    key first.old ≠ key second.new := by
  intro heq
  have hsource := (h.replaced_fits first hfirst).1
  rcases (h.replaced_fits second hsecond).2.2 with hsame | ⟨hnone, _⟩
  · exact hne (heq.trans hsame)
  · rw [heq, hnone] at hsource
    cases hsource

theorem removed_distinct : Distinct removed :=
  (List.pairwise_append.mp h.gone_distinct).1

theorem added_distinct : Distinct added :=
  (List.pairwise_append.mp h.come_distinct).1

theorem replaced_apart :
    replaced.Pairwise fun first second => ∀ k, (k = key first.old ∨ k = key first.new) →
      ¬(k = key second.old ∨ k = key second.new) := by
  have hold := (List.pairwise_append.mp h.gone_distinct).2.1
  have hnew := (List.pairwise_append.mp h.come_distinct).2.1
  rw [List.pairwise_map] at hold hnew
  refine (hold.and hnew).imp_of_mem ?_
  rintro first second hfirst hsecond ⟨hne, hne'⟩ k (rfl | rfl) (hk | hk)
  · exact hne hk
  · exact h.old_ne_new hfirst hsecond hne hk
  · exact h.old_ne_new hsecond hfirst hne.symm hk.symm
  · exact hne' hk

theorem moves_fit (hrefl : ∀ a, same a a) :
    ∀ move ∈ moves removed replaced added, move.Fits same source target := by
  intro move hmove
  simp only [moves, List.mem_append, List.mem_map] at hmove
  rcases hmove with (⟨item, hitem, rfl⟩ | ⟨change, hchange, rfl⟩) | ⟨item, hitem, rfl⟩
  · obtain ⟨hsource, htarget⟩ := h.removed_fits item hitem
    exact ⟨by simp [hsource], htarget⟩
  · obtain ⟨hold, hnew, hplace⟩ := h.replaced_fits change hchange
    exact ⟨by simp [hold], hnew ▸ .some (hrefl _), hplace⟩
  · obtain ⟨hnone, hnew⟩ := h.added_fits item hitem
    exact ⟨hnone, hnew ▸ .some (hrefl _)⟩

theorem moves_apart :
    (moves removed replaced added).Pairwise
      fun first second => ∀ k, first.Touches k → ¬ second.Touches k := by
  rw [moves, List.pairwise_append, List.pairwise_append, List.pairwise_map, List.pairwise_map,
    List.pairwise_map]
  refine ⟨⟨?_, h.replaced_apart, ?_⟩, ?_, ?_⟩
  · exact h.removed_distinct.imp fun hne k hfirst hsecond => hne (hfirst.symm.trans hsecond)
  · simp only [List.forall_mem_map]
    rintro item hitem change hchange k rfl (hk | hk)
    · exact h.removed_ne_old hitem hchange hk
    · exact h.removed_ne_new hitem hchange hk
  · exact h.added_distinct.imp fun hne k hfirst hsecond => hne (hfirst.symm.trans hsecond)
  · simp only [List.mem_append, List.forall_mem_map]
    rintro move (hmove | hmove) item hitem k hfirst hsecond
    · obtain ⟨gone, hgone, rfl⟩ := List.mem_map.mp hmove
      exact h.removed_ne_added hgone hitem (hfirst.symm.trans hsecond)
    · obtain ⟨change, hchange, rfl⟩ := List.mem_map.mp hmove
      rcases hfirst with rfl | rfl
      · exact h.added_ne_old hitem hchange hsecond.symm
      · exact h.added_ne_new hitem hchange hsecond.symm

end Apart

theorem plan (h : Account same source target removed replaced added) (hrefl : ∀ a, same a a) :
    Plan same source target (moves removed replaced added) :=
  ⟨h.moves_fit hrefl, h.moves_apart⟩

theorem kept_of_not_touched (h : Account same source target removed replaced added)
    {k : String} (hk : ∀ move ∈ moves removed replaced added, ¬ move.Touches k) :
    Option.Rel same (source k) (target k) := by
  have hremoved : ∀ item ∈ removed, k ≠ key item := fun item hitem =>
    hk (.drop (key item))
      (List.mem_append_left _ (List.mem_append_left _ (List.mem_map_of_mem hitem)))
  have hadded : ∀ item ∈ added, k ≠ key item := fun item hitem =>
    hk (.add item) (List.mem_append_right _ (List.mem_map_of_mem hitem))
  have hreplaced : ∀ change ∈ replaced, ¬(k = key change.old ∨ k = key change.new) :=
    fun change hchange => hk (.replace (key change.old) change.new)
      (List.mem_append_left _ (List.mem_append_right _ (List.mem_map.mpr ⟨change, hchange, rfl⟩)))
  apply h.kept
  · rw [lookup_eq_none_iff]
    simp only [List.mem_append, List.mem_map]
    rintro item (hitem | ⟨change, hchange, rfl⟩)
    · exact (hremoved item hitem).symm
    · exact fun heq => hreplaced change hchange (.inl heq.symm)
  · rw [lookup_eq_none_iff]
    simp only [List.mem_append, List.mem_map]
    rintro item (hitem | ⟨change, hchange, rfl⟩)
    · exact (hadded item hitem).symm
    · exact fun heq => hreplaced change hchange (.inr heq.symm)

theorem progress (h : Account same source target removed replaced added)
    (htrans : ∀ {a b c}, same a b → same b c → same a c) {f : String → Option α}
    (hagree : Agree same f source) {ordered : List (Move α)}
    (hperm : (moves removed replaced added).Perm ordered) :
    Progress same source target ordered f :=
  .start hagree htrans fun _ hk =>
    h.kept_of_not_touched fun move hmove => hk move (hperm.mem_iff.mp hmove)

theorem map [Named β] {f : α → β} (hkey : ∀ item, key (f item) = key item)
    {same' : β → β → Prop} (hsame : ∀ a b, same a b → same' (f a) (f b))
    (h : Account same source target removed replaced added) :
    Account same' (fun k => (source k).map f) (fun k => (target k).map f) (removed.map f)
      (replaced.map (Change.map f)) (added.map f) := by
  have hold : removed.map f ++ (replaced.map (Change.map f)).map (·.old) =
      (removed ++ replaced.map (·.old)).map f := by
    simp [Change.map, Function.comp_def]
  have hnew : added.map f ++ (replaced.map (Change.map f)).map (·.new) =
      (added ++ replaced.map (·.new)).map f := by
    simp [Change.map, Function.comp_def]
  constructor
  · simp only [List.forall_mem_map, hkey]
    intro item hitem
    obtain ⟨hsource, htarget⟩ := h.removed_fits item hitem
    exact ⟨by rw [hsource, Option.map_some], by rw [htarget, Option.map_none]⟩
  · simp only [List.forall_mem_map, Change.map, hkey]
    intro change hchange
    obtain ⟨hsource, htarget, hplace⟩ := h.replaced_fits change hchange
    refine ⟨by rw [hsource, Option.map_some], by rw [htarget, Option.map_some], ?_⟩
    exact hplace.imp id fun ⟨hnone, hnone'⟩ => ⟨by rw [hnone]; rfl, by rw [hnone']; rfl⟩
  · simp only [List.forall_mem_map, hkey]
    intro item hitem
    obtain ⟨hsource, htarget⟩ := h.added_fits item hitem
    exact ⟨by rw [hsource, Option.map_none], by rw [htarget, Option.map_some]⟩
  · rw [hold, distinct_map hkey]
    exact h.gone_distinct
  · rw [hnew, distinct_map hkey]
    exact h.come_distinct
  · intro k
    rw [hold, hnew, lookup_map hkey, lookup_map hkey, Option.map_eq_none_iff,
      Option.map_eq_none_iff]
    intro hgone hcome
    have hrel := h.kept k hgone hcome
    revert hrel
    cases source k <;> cases target k <;> simp
    exact hsame _ _

theorem mono (h : Account same source target removed replaced added) {same' : α → α → Prop}
    (hsame : ∀ k a b, source k = some a → target k = some b → same a b → same' a b) :
    Account same' source target removed replaced added := by
  refine ⟨h.removed_fits, h.replaced_fits, h.added_fits, h.gone_distinct, h.come_distinct, ?_⟩
  intro k hgone hcome
  have hrel := h.kept k hgone hcome
  cases ha : source k <;> cases hb : target k <;> simp only [ha, hb] at hrel ⊢
  · exact .none
  · cases hrel
  · cases hrel
  · rw [Option.rel_some_some] at hrel ⊢
    exact hsame k _ _ ha hb hrel

/-! ### Dropping first

Instead of being replaced in one move, an item can be dropped at first and the
other one added later. -/

theorem drop (h : Account same source target removed (dropped ++ replaced) added)
    (hrefl : ∀ a, same a a) :
    Account same source (without source (removed ++ dropped.map (·.old)))
      (removed ++ dropped.map (·.old)) [] [] := by
  refine ⟨?_, by simp, by simp, h.gone_distinct.sublist (by simp), .nil, ?_⟩
  · intro item hitem
    refine ⟨?_, without_of_mem hitem⟩
    rcases List.mem_append.mp hitem with hitem | hitem
    · exact (h.removed_fits item hitem).1
    · obtain ⟨change, hchange, rfl⟩ := List.mem_map.mp hitem
      exact (h.replaced_fits change (List.mem_append_left _ hchange)).1
  · intro k hk _
    rw [List.map_nil, List.append_nil] at hk
    rw [without_of_lookup_eq_none hk]
    exact Agree.refl hrefl source k

theorem without_dropped (h : Account same source target removed (dropped ++ replaced) added)
    {k : String} {item : α} (hk : source k = some item)
    (hreplaced : lookup (replaced.map (·.old)) k ≠ none) :
    without source (removed ++ dropped.map (·.old)) k = some item := by
  rw [without_of_lookup_eq_none, hk]
  obtain ⟨old, hold⟩ := Option.ne_none_iff_exists'.mp hreplaced
  obtain ⟨holdMem, rfl⟩ := mem_of_lookup hold
  have hdistinct := h.gone_distinct
  rw [List.map_append, ← List.append_assoc] at hdistinct
  exact lookup_eq_none_iff.mpr fun other hother =>
    (List.pairwise_append.mp hdistinct).2.2 other hother old holdMem

theorem restore (h : Account same source target removed (dropped ++ replaced) added) :
    Account same (without source (removed ++ dropped.map (·.old))) target [] replaced
      (added ++ dropped.map (·.new)) := by
  have hnone : ∀ {k}, source k = none →
      without source (removed ++ dropped.map (·.old)) k = none := fun hk => by
    simp [without, hk]
  have hcome : (added ++ (dropped ++ replaced).map (·.new)) =
      (added ++ dropped.map (·.new)) ++ replaced.map (·.new) := by simp
  refine ⟨by simp, ?_, ?_, ?_, hcome ▸ h.come_distinct, ?_⟩
  · intro change hchange
    obtain ⟨hold, hnew, hplace⟩ := h.replaced_fits change (List.mem_append_right _ hchange)
    refine ⟨h.without_dropped hold ?_, hnew, hplace.imp id (And.imp_left hnone)⟩
    rw [Ne, lookup_eq_none_iff]
    exact fun hall => hall change.old (List.mem_map_of_mem hchange) rfl
  · intro item hitem
    rcases List.mem_append.mp hitem with hitem | hitem
    · exact (h.added_fits item hitem).imp_left hnone
    · obtain ⟨change, hchange, rfl⟩ := List.mem_map.mp hitem
      obtain ⟨_, hnew, hplace⟩ := h.replaced_fits change (List.mem_append_left _ hchange)
      refine ⟨?_, hnew⟩
      rcases hplace with hsame | ⟨habsent, _⟩
      · rw [hsame]
        exact without_of_mem (List.mem_append_right _ (List.mem_map_of_mem hchange))
      · exact hnone habsent
  · exact h.gone_distinct.sublist (by simp)
  · intro k hgone hcome'
    by_cases hdropped : lookup (removed ++ dropped.map (·.old)) k = none
    · rw [without_of_lookup_eq_none hdropped]
      refine h.kept k ?_ (hcome ▸ hcome')
      rw [lookup_eq_none_iff] at hgone hdropped ⊢
      intro item hitem
      rw [List.map_append, ← List.append_assoc] at hitem
      exact (List.mem_append.mp hitem).elim (hdropped item) (hgone item)
    · obtain ⟨item, hitem⟩ := Option.ne_none_iff_exists'.mp hdropped
      obtain ⟨hitemMem, rfl⟩ := mem_of_lookup hitem
      have htarget : target (key item) = none := by
        rcases List.mem_append.mp hitemMem with hremoved | hchanged
        · exact (h.removed_fits item hremoved).2
        · obtain ⟨change, hchange, rfl⟩ := List.mem_map.mp hchanged
          rcases (h.replaced_fits change (List.mem_append_left _ hchange)).2.2 with hsame | habsent
          · refine absurd hsame (lookup_eq_none_iff.mp hcome' change.new ?_)
            simp only [List.mem_append, List.mem_map]
            exact .inl (.inr ⟨change, hchange, rfl⟩)
          · exact habsent.2
      rw [without_of_mem hitemMem, htarget]
      exact .none

/-- When nothing is removed, every item is replaced or stays the same. -/
theorem survives (h : Account same source target [] replaced added) {k : String} {item : α}
    (hk : source k = some item) :
    (∃ change ∈ replaced, change.old = item) ∨
      ∃ other, target k = some other ∧ same item other := by
  by_cases hreplaced : ∃ change ∈ replaced, key change.old = k
  · obtain ⟨change, hchange, rfl⟩ := hreplaced
    refine .inl ⟨change, hchange, Option.some.inj ?_⟩
    rw [← hk, (h.replaced_fits change hchange).1]
  · refine .inr ?_
    have hrel : Option.Rel same (source k) (target k) := by
      apply h.kept
      · rw [List.nil_append, lookup_eq_none_iff, List.forall_mem_map]
        exact fun change hchange heq => hreplaced ⟨change, hchange, heq⟩
      · rw [lookup_eq_none_iff]
        simp only [List.mem_append, List.mem_map]
        rintro other (hadded | ⟨change, hchange, rfl⟩) rfl
        · rw [(h.added_fits other hadded).1] at hk
          cases hk
        · rcases (h.replaced_fits change hchange).2.2 with hsame | ⟨hnone, _⟩
          · exact hreplaced ⟨change, hchange, hsame.symm⟩
          · rw [hnone] at hk
            cases hk
    rw [hk] at hrel
    cases hother : target k with
    | none => simp [hother] at hrel
    | some other => exact ⟨other, rfl, by simpa [hother] using hrel⟩

end Account

/-! ## The difference between two lists -/

namespace Delta

variable {same mates : α → α → Bool} {old new : List α}

theorem mem_unmatched {items others : List α} {item : α} :
    item ∈ unmatched items others ↔ item ∈ items ∧ lookup others (key item) = none := by
  simp [unmatched, contains_eq_isSome, key]

theorem mem_matched {change : Change α} :
    change ∈ matched old new ↔
      change.old ∈ old ∧ lookup new (key change.old) = some change.new := by
  simp only [matched, find?_eq_lookup, List.mem_filterMap, Option.map_eq_some_iff]
  constructor
  · rintro ⟨item, hitem, counterpart, hfound, rfl⟩
    exact ⟨hitem, hfound⟩
  · rintro ⟨hold, hfound⟩
    exact ⟨change.old, hold, change.new, hfound, rfl⟩

theorem key_of_mem_matched {change : Change α} (h : change ∈ matched old new) :
    key change.new = key change.old :=
  (mem_of_lookup (mem_matched.mp h).2).2

/-- The counterparts that differ. -/
def altered (same : α → α → Bool) (old new : List α) : List (Change α) :=
  (matched old new).filter fun change => !same change.old change.new

theorem mem_altered {change : Change α} :
    change ∈ altered same old new ↔
      change ∈ matched old new ∧ same change.old change.new = false := by
  simp [altered]

theorem matched_old (old new : List α) :
    (matched old new).map (·.old) =
      old.filter fun item => contains (Named.name item) new := by
  induction old with
  | nil => rfl
  | cons item old ih =>
      cases hfound : find? (Named.name item) new with
      | none =>
          have hcontains : contains (Named.name item) new = false := by
            simp [contains_eq_isSome, ← find?_eq_lookup, hfound]
          simpa [matched, hfound, hcontains] using ih
      | some counterpart =>
          have hcontains : contains (Named.name item) new = true := by
            simp [contains_eq_isSome, ← find?_eq_lookup, hfound]
          simpa [matched, hfound, hcontains] using ih

theorem altered_old_sublist (same : α → α → Bool) (old new : List α) :
    ((altered same old new).map (·.old)).Sublist old := by
  have hmatched : ((matched old new).map (·.old)).Sublist old := by
    rw [matched_old]
    exact List.filter_sublist
  exact (List.filter_sublist.map Change.old).trans hmatched

theorem altered_old_distinct (same : α → α → Bool) (new : List α) (hold : Distinct old) :
    Distinct ((altered same old new).map (·.old)) :=
  hold.sublist (altered_old_sublist same old new)

theorem altered_new_distinct (same : α → α → Bool) (new : List α) (hold : Distinct old) :
    Distinct ((altered same old new).map (·.new)) := by
  have hdistinct := altered_old_distinct same new hold
  rw [Distinct, List.pairwise_map] at hdistinct ⊢
  refine hdistinct.imp_of_mem fun {first second} hfirst hsecond hne => ?_
  rwa [key_of_mem_matched (mem_altered.mp hfirst).1,
    key_of_mem_matched (mem_altered.mp hsecond).1]

theorem unmatched_append_distinct {items others : List α} {list : List α}
    (hitems : Distinct items) (hlist : Distinct list)
    (hothers : ∀ item ∈ list, lookup others (key item) ≠ none) :
    Distinct (unmatched items others ++ list) := by
  refine List.pairwise_append.mpr ⟨hitems.sublist List.filter_sublist, hlist, ?_⟩
  intro item hitem other hother heq
  exact hothers other hother (heq ▸ (mem_unmatched.mp hitem).2)

/-- What is neither unmatched nor altered is the same on both sides. -/
theorem rel_of_keys_ne {same : α → α → Bool} {k : String}
    (hgone : ∀ item ∈ unmatched old new ++ (altered same old new).map (·.old), key item ≠ k)
    (hcome : ∀ item ∈ unmatched new old, key item ≠ k) :
    Option.Rel (fun a b => same a b = true) (lookup old k) (lookup new k) := by
  cases hold : lookup old k with
  | none =>
      cases hnew : lookup new k with
      | none => exact .none
      | some item =>
          obtain ⟨hmem, rfl⟩ := mem_of_lookup hnew
          exact absurd rfl (hcome item (mem_unmatched.mpr ⟨hmem, hold⟩))
  | some item =>
      obtain ⟨hmem, rfl⟩ := mem_of_lookup hold
      cases hnew : lookup new (key item) with
      | none =>
          have hunmatched := mem_unmatched.mpr ⟨hmem, hnew⟩
          exact absurd rfl (hgone item (List.mem_append_left _ hunmatched))
      | some counterpart =>
          refine .some (Decidable.byContradiction fun hdiffers => ?_)
          have haltered : (⟨item, counterpart⟩ : Change α) ∈ altered same old new :=
            mem_altered.mpr ⟨mem_matched.mpr ⟨hmem, hnew⟩, by simpa using hdiffers⟩
          exact hgone item (List.mem_append_right _ (List.mem_map_of_mem haltered)) rfl

/-- Taking mates out of the unmatched items accounts for the whole difference. -/
theorem account_of_pairOff (same mates : α → α → Bool) (hold : Distinct old)
    (hnew : Distinct new) {pairing : Pairing α}
    (hpairing : pairing = pairOff mates (unmatched old new) (unmatched new old)) :
    Account (fun a b => same a b = true) (lookup old) (lookup new) pairing.removed
      (altered same old new ++ pairing.pairs) pairing.added := by
  have hremoved := pairOff_removed_perm mates (unmatched old new) (unmatched new old)
  have hadded := pairOff_added_perm mates (unmatched old new) (unmatched new old)
  rw [← hpairing] at hremoved hadded
  have hgone : (unmatched old new ++ (altered same old new).map (·.old)).Perm
      (pairing.removed ++ (altered same old new ++ pairing.pairs).map (·.old)) := by
    rw [List.map_append]
    refine (hremoved.append_right _).trans ?_
    rw [List.append_assoc]
    exact List.perm_append_comm.append_left _
  have hcome : (unmatched new old ++ (altered same old new).map (·.new)).Perm
      (pairing.added ++ (altered same old new ++ pairing.pairs).map (·.new)) := by
    rw [List.map_append]
    refine (hadded.append_right _).trans ?_
    rw [List.append_assoc]
    exact List.perm_append_comm.append_left _
  have hremovedMem : ∀ item, item ∈ pairing.removed ++ pairing.pairs.map (·.old) →
      item ∈ old ∧ lookup new (key item) = none := fun item hitem =>
    mem_unmatched.mp (hremoved.mem_iff.mpr hitem)
  have haddedMem : ∀ item, item ∈ pairing.added ++ pairing.pairs.map (·.new) →
      item ∈ new ∧ lookup old (key item) = none := fun item hitem =>
    mem_unmatched.mp (hadded.mem_iff.mpr hitem)
  constructor
  · intro item hitem
    obtain ⟨hmem, hnone⟩ := hremovedMem item (List.mem_append_left _ hitem)
    exact ⟨lookup_key hold hmem, hnone⟩
  · intro change hchange
    rcases List.mem_append.mp hchange with haltered | hpair
    · have hmatched := (mem_altered.mp haltered).1
      have hkey := key_of_mem_matched hmatched
      obtain ⟨hmem, hfound⟩ := mem_matched.mp hmatched
      exact ⟨lookup_key hold hmem, hkey ▸ hfound, .inl hkey⟩
    · obtain ⟨holdMem, holdNone⟩ :=
        hremovedMem change.old (List.mem_append_right _ (List.mem_map_of_mem hpair))
      obtain ⟨hnewMem, hnewNone⟩ :=
        haddedMem change.new (List.mem_append_right _ (List.mem_map_of_mem hpair))
      exact ⟨lookup_key hold holdMem, lookup_key hnew hnewMem, .inr ⟨hnewNone, holdNone⟩⟩
  · intro item hitem
    obtain ⟨hmem, hnone⟩ := haddedMem item (List.mem_append_left _ hitem)
    exact ⟨hnone, lookup_key hnew hmem⟩
  · refine (unmatched_append_distinct hold (altered_old_distinct same new hold) ?_).perm hgone
    simp only [List.forall_mem_map]
    intro change hchange
    simp [(mem_matched.mp (mem_altered.mp hchange).1).2]
  · refine (unmatched_append_distinct hnew (altered_new_distinct same new hold) ?_).perm hcome
    simp only [List.forall_mem_map]
    intro change hchange
    have hmatched := (mem_altered.mp hchange).1
    rw [key_of_mem_matched hmatched, lookup_key hold (mem_matched.mp hmatched).1]
    simp
  · intro k hnotGone hnotCome
    rw [lookup_eq_none_iff] at hnotGone hnotCome
    exact rel_of_keys_ne (fun item hitem => hnotGone item (hgone.mem_iff.mp hitem))
      fun item hitem => hnotCome item (hcome.mem_iff.mp (List.mem_append_left _ hitem))

theorem sort_perm {γ : Type} [Named γ] (items : List γ) : (Named.sort items).Perm items :=
  List.mergeSort_perm _ _

theorem sort_eq_nil_iff {γ : Type} [Named γ] {items : List γ} :
    Named.sort items = [] ↔ items = [] := by
  constructor
  · intro h
    exact (h ▸ sort_perm items).nil_eq.symm
  · rintro rfl
    simp [Named.sort]

theorem unsorted_account (same mates : α → α → Bool) (hold : Distinct old)
    (hnew : Distinct new) :
    Account (fun a b => same a b = true) (lookup old) (lookup new)
      (unsorted same mates old new).removed
      ((unsorted same mates old new).changed ++ (unsorted same mates old new).renamed)
      (unsorted same mates old new).added :=
  account_of_pairOff same mates hold hnew rfl

theorem between_account (same mates : α → α → Bool) (hold : Distinct old)
    (hnew : Distinct new) :
    Account (fun a b => same a b = true) (lookup old) (lookup new)
      (between same mates old new).removed
      ((between same mates old new).changed ++ (between same mates old new).renamed)
      (between same mates old new).added :=
  (unsorted_account same mates hold hnew).perm (sort_perm _).symm
    ((sort_perm _).symm.append (sort_perm _).symm) (sort_perm _).symm

theorem mates_of_mem_renamed {change : Change α}
    (h : change ∈ (between same mates old new).renamed) :
    mates change.old change.new = true :=
  mates_of_mem_pairOff ((sort_perm _).mem_iff.mp h)

theorem unmatched_eq_nil_iff {items others : List α} :
    unmatched items others = [] ↔ ∀ item ∈ items, lookup others (key item) ≠ none := by
  simp only [List.eq_nil_iff_forall_not_mem, mem_unmatched, not_and, Ne]

theorem altered_eq_nil_iff :
    altered same old new = [] ↔
      ∀ item ∈ old, ∀ counterpart, lookup new (key item) = some counterpart →
        same item counterpart = true := by
  simp only [List.eq_nil_iff_forall_not_mem, mem_altered, mem_matched, not_and,
    Bool.not_eq_false]
  constructor
  · intro h item hitem counterpart hfound
    exact h ⟨item, counterpart⟩ ⟨hitem, hfound⟩
  · rintro h change ⟨hmem, hfound⟩
    exact h change.old hmem change.new hfound

/-- There is nothing to account for exactly when the two lists agree. -/
theorem nothing_iff_agree (same mates : α → α → Bool) (hold : Distinct old)
    (hnew : Distinct new) {pairing : Pairing α}
    (hpairing : pairing = pairOff mates (unmatched old new) (unmatched new old)) :
    pairing.removed = [] ∧ altered same old new ++ pairing.pairs = [] ∧ pairing.added = [] ↔
      Agree (fun a b => same a b = true) (lookup old) (lookup new) := by
  constructor
  · rintro ⟨hremoved, hreplaced, hadded⟩ k
    have haccount := account_of_pairOff same mates hold hnew hpairing
    rw [hremoved, hreplaced, hadded] at haccount
    exact haccount.kept k rfl rfl
  · intro hagree
    have hold' : unmatched old new = [] := unmatched_eq_nil_iff.mpr fun item hitem =>
      (hagree.ne_none_iff _).mp (by simp [lookup_key hold hitem])
    have hnew' : unmatched new old = [] := unmatched_eq_nil_iff.mpr fun item hitem =>
      (hagree.ne_none_iff _).mpr (by simp [lookup_key hnew hitem])
    have haltered : altered same old new = [] := altered_eq_nil_iff.mpr
      fun item hitem counterpart hfound => by
        obtain ⟨other, hother, hsame⟩ := hagree.exists_of_eq_some (lookup_key hold hitem)
        rw [hfound, Option.some.injEq] at hother
        exact hother ▸ hsame
    rw [hpairing, hold', hnew', haltered]
    simp [pairOff]

theorem unsorted_isEmpty_iff (same mates : α → α → Bool) (hold : Distinct old)
    (hnew : Distinct new) :
    (unsorted same mates old new).isEmpty = true ↔
      Agree (fun a b => same a b = true) (lookup old) (lookup new) := by
  rw [← nothing_iff_agree same mates hold hnew rfl]
  simp only [isEmpty, unsorted, Bool.and_eq_true, List.isEmpty_iff, List.append_eq_nil_iff,
    altered]
  constructor
  · rintro ⟨⟨⟨hadded, hremoved⟩, haltered⟩, hpairs⟩
    exact ⟨hremoved, ⟨haltered, hpairs⟩, hadded⟩
  · rintro ⟨hremoved, ⟨haltered, hpairs⟩, hadded⟩
    exact ⟨⟨⟨hadded, hremoved⟩, haltered⟩, hpairs⟩

theorem sorted_isEmpty_iff (delta : Delta α) :
    delta.sorted.isEmpty = true ↔ delta.isEmpty = true := by
  simp only [isEmpty, sorted, Bool.and_eq_true, List.isEmpty_iff, sort_eq_nil_iff]

theorem between_isEmpty_iff (same mates : α → α → Bool) (hold : Distinct old)
    (hnew : Distinct new) :
    (between same mates old new).isEmpty = true ↔
      Agree (fun a b => same a b = true) (lookup old) (lookup new) :=
  (sorted_isEmpty_iff _).trans (unsorted_isEmpty_iff same mates hold hnew)

end Delta

end SchemaDelta
