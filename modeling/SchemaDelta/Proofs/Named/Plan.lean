import SchemaDelta.Proofs.Named.Lookup

/-!
# Plans between two lists of named things

A move drops, replaces or adds one item.  A plan is a list of moves that lead
from one partial map to another and concern different keys each.  While a plan
is carried out, a key that a move is still to come for has its old item, and any
other key has its new one; so no move is in the way of another, and the order of
the moves does not matter.
-/

namespace SchemaDelta.Named

variable {α : Type}

/-! ## Agreement -/

/-- Equality of two partial maps up to the items that are the `same`. -/
def Agree (same : α → α → Prop) (f g : String → Option α) : Prop :=
  ∀ k, Option.Rel same (f k) (g k)

namespace Agree

variable {same : α → α → Prop} {f g h : String → Option α}

theorem refl (hrefl : ∀ a, same a a) (f : String → Option α) : Agree same f f := by
  intro k
  cases f k with
  | none => exact .none
  | some a => exact .some (hrefl a)

theorem symm (hsymm : ∀ {a b}, same a b → same b a) (hfg : Agree same f g) :
    Agree same g f := by
  intro k
  have hab := hfg k
  revert hab
  cases f k <;> cases g k <;> simp
  exact hsymm

theorem trans (htrans : ∀ {a b c}, same a b → same b c → same a c)
    (hfg : Agree same f g) (hgh : Agree same g h) : Agree same f h := by
  intro k
  have hab := hfg k
  have hbc := hgh k
  revert hab hbc
  cases f k <;> cases g k <;> cases h k <;> simp
  exact htrans

theorem eq_none_iff (hfg : Agree same f g) (k : String) : f k = none ↔ g k = none := by
  have hab := hfg k
  revert hab
  cases f k <;> cases g k <;> simp

theorem ne_none_iff (hfg : Agree same f g) (k : String) : f k ≠ none ↔ g k ≠ none :=
  not_congr (hfg.eq_none_iff k)

theorem exists_of_eq_some {a : α} {k : String} (hfg : Agree same f g) (ha : f k = some a) :
    ∃ b, g k = some b ∧ same a b := by
  have hab := hfg k
  rw [ha] at hab
  cases hgk : g k with
  | none => simp [hgk] at hab
  | some b => exact ⟨b, rfl, by simpa [hgk] using hab⟩

theorem exists_of_eq_some_right {b : α} {k : String} (hfg : Agree same f g)
    (hb : g k = some b) : ∃ a, f k = some a ∧ same a b := by
  have hab := hfg k
  rw [hb] at hab
  cases hfk : f k with
  | none => simp [hfk] at hab
  | some a => exact ⟨a, rfl, by simpa [hfk] using hab⟩

theorem update {a b : α} (hrefl : ∀ a, same a a) (hab : same a b) (f : String → Option α)
    (k : String) :
    Agree same (Function.update f k (some a)) (Function.update f k (some b)) := by
  intro other
  by_cases hk : other = k
  · subst hk
    simpa using hab
  · rw [Function.update_of_ne hk, Function.update_of_ne hk]
    exact refl hrefl f other

end Agree

/-! ## Moves -/

variable [Named α]

inductive Move (α : Type)
  | drop (key : String)
  | replace (key : String) (item : α)
  | add (item : α)

namespace Move

def Touches : Move α → String → Prop
  | drop k, key => key = k
  | replace k item, key => key = k ∨ key = Named.key item
  | add item, key => key = Named.key item

def apply : Move α → (String → Option α) → String → Option α
  | drop k, f => Function.update f k none
  | replace k item, f => Function.update (Function.update f k none) (key item) (some item)
  | add item, f => Function.update f (key item) (some item)

theorem apply_of_not_touches {move : Move α} {k : String} (h : ¬ move.Touches k)
    (f : String → Option α) : move.apply f k = f k := by
  cases move with
  | drop => exact Function.update_of_ne h _ _
  | replace old item =>
      simp only [Touches, not_or] at h
      rw [apply, Function.update_of_ne h.2, Function.update_of_ne h.1]
  | add => exact Function.update_of_ne h _ _

/-- Whether a move leads from `source` towards `target`, where items that are the
`same` need no move. -/
def Fits (same : α → α → Prop) (source target : String → Option α) : Move α → Prop
  | drop k => source k ≠ none ∧ target k = none
  | replace k item =>
      source k ≠ none ∧ Option.Rel same (some item) (target (key item)) ∧
        (key item = k ∨ source (key item) = none ∧ target k = none)
  | add item => source (key item) = none ∧ Option.Rel same (some item) (target (key item))

theorem rel_apply_of_touches {same : α → α → Prop} {source target : String → Option α}
    {move : Move α} (hfits : move.Fits same source target) {k : String}
    (h : move.Touches k) (f : String → Option α) :
    Option.Rel same (move.apply f k) (target k) := by
  cases move with
  | drop old =>
      obtain rfl : k = old := h
      rw [apply, Function.update_self, hfits.2]
      exact .none
  | replace old item =>
      obtain ⟨_, hitem, hold⟩ := hfits
      by_cases hk : k = key item
      · subst hk
        rw [apply, Function.update_self]
        exact hitem
      · obtain rfl : k = old := h.resolve_right hk
        obtain hsame | ⟨_, hnone⟩ := hold
        · exact absurd hsame.symm hk
        · rw [apply, Function.update_of_ne hk, Function.update_self, hnone]
          exact .none
  | add item =>
      obtain rfl : k = key item := h
      rw [apply, Function.update_self]
      exact hfits.2

end Move

/-! ## Plans -/

structure Plan (same : α → α → Prop) (source target : String → Option α)
    (moves : List (Move α)) : Prop where
  fits : ∀ move ∈ moves, move.Fits same source target
  apart : moves.Pairwise fun first second => ∀ k, first.Touches k → ¬ second.Touches k

/-- How far a plan has come when `moves` are still to be made. -/
structure Progress (same : α → α → Prop) (source target : String → Option α)
    (moves : List (Move α)) (f : String → Option α) : Prop where
  pending : ∀ k, (∃ move ∈ moves, move.Touches k) → Option.Rel same (f k) (source k)
  settled : ∀ k, (∀ move ∈ moves, ¬ move.Touches k) → Option.Rel same (f k) (target k)

variable {same : α → α → Prop} {source target f : String → Option α}
  {move : Move α} {moves others : List (Move α)}

namespace Plan

theorem tail (hplan : Plan same source target (move :: moves)) :
    Plan same source target moves :=
  ⟨fun other hother => hplan.fits other (List.mem_cons_of_mem _ hother),
    (List.pairwise_cons.mp hplan.apart).2⟩

theorem head_fits (hplan : Plan same source target (move :: moves)) :
    move.Fits same source target :=
  hplan.fits move List.mem_cons_self

theorem perm (hplan : Plan same source target moves) (hperm : moves.Perm others) :
    Plan same source target others :=
  ⟨fun move hmove => hplan.fits move (hperm.mem_iff.mpr hmove),
    (hperm.pairwise_iff fun hapart k hsecond hfirst => hapart k hfirst hsecond).mp hplan.apart⟩

end Plan

namespace Progress

/-- At the start all keys that no move is for agree already. -/
theorem start (hf : Agree same f source)
    (htrans : ∀ {a b c}, same a b → same b c → same a c)
    (hkept : ∀ k, (∀ move ∈ moves, ¬ move.Touches k) →
      Option.Rel same (source k) (target k)) :
    Progress same source target moves f := by
  refine ⟨fun k _ => hf k, fun k hk => ?_⟩
  have hab := hf k
  have hbc := hkept k hk
  revert hab hbc
  cases f k <;> cases source k <;> cases target k <;> simp
  exact htrans

theorem pending_head (hprogress : Progress same source target (move :: moves) f)
    {k : String} (h : move.Touches k) : Option.Rel same (f k) (source k) :=
  hprogress.pending k ⟨move, List.mem_cons_self, h⟩

theorem eq_none_iff (hprogress : Progress same source target (move :: moves) f) {k : String}
    (h : move.Touches k) : f k = none ↔ source k = none := by
  have hrel := hprogress.pending_head h
  revert hrel
  cases f k <;> cases source k <;> simp

/-- A move leaves the rest of the plan as it is. -/
theorem step (hplan : Plan same source target (move :: moves))
    (hprogress : Progress same source target (move :: moves) f) :
    Progress same source target moves (move.apply f) := by
  have hapart := (List.pairwise_cons.mp hplan.apart).1
  constructor
  · rintro k ⟨other, hother, htouches⟩
    have hnot : ¬ move.Touches k := fun h => hapart other hother k h htouches
    rw [Move.apply_of_not_touches hnot]
    exact hprogress.pending k ⟨other, List.mem_cons_of_mem _ hother, htouches⟩
  · intro k hk
    by_cases htouches : move.Touches k
    · exact Move.rel_apply_of_touches hplan.head_fits htouches f
    · rw [Move.apply_of_not_touches htouches]
      refine hprogress.settled k fun other hother => ?_
      rcases List.mem_cons.mp hother with rfl | hother
      · exact htouches
      · exact hk other hother

theorem congr {g : String → Option α} (htrans : ∀ {a b c}, same a b → same b c → same a c)
    (hprogress : Progress same source target moves f) (hgf : Agree same g f) :
    Progress same source target moves g := by
  have hrel : ∀ {k : String} {b : Option α}, Option.Rel same (f k) b → Option.Rel same (g k) b := by
    intro k b hb
    have ha := hgf k
    revert ha hb
    cases f k <;> cases g k <;> cases b <;> simp
    exact fun hbc hab => htrans hab hbc
  exact ⟨fun k hk => hrel (hprogress.pending k hk), fun k hk => hrel (hprogress.settled k hk)⟩

theorem agree (hprogress : Progress same source target [] f) : Agree same f target :=
  fun k => hprogress.settled k (by simp)

end Progress

end SchemaDelta.Named
