import SchemaDelta.Name

/-!
# Differences between two lists of named things

Things are matched by name.  What has a counterpart of its name is changed or
stays as it is; of the others, an old and a new one that are mates count as one
renamed thing, and the rest is removed or added.  Mates are paired greedily:
each old thing in order takes the first new one that is left.
-/

namespace SchemaDelta

structure Change (α : Type) where
  old : α
  new : α
  deriving Repr, DecidableEq, Inhabited

variable {α β : Type}

def Change.map (f : α → β) (change : Change α) : Change β :=
  ⟨f change.old, f change.new⟩

instance [Named α] : Named (Change α) := ⟨fun change => Named.name change.old⟩

structure Delta (α : Type) where
  added : List α := []
  removed : List α := []
  changed : List (Change α) := []
  renamed : List (Change α) := []
  deriving Repr, DecidableEq, Inhabited

/-- What is left of two lists after taking mates out of them. -/
structure Pairing (α : Type) where
  pairs : List (Change α)
  removed : List α
  added : List α

def pairOff (mates : α → α → Bool) : (removed added : List α) → Pairing α
  | [], added => ⟨[], [], added⟩
  | old :: removed, added =>
      match added.find? (mates old) with
      | some new =>
          let rest := pairOff mates removed (added.eraseP (mates old))
          { rest with pairs := ⟨old, new⟩ :: rest.pairs }
      | none =>
          let rest := pairOff mates removed added
          { rest with removed := old :: rest.removed }

namespace Delta

def isEmpty (delta : Delta α) : Bool :=
  delta.added.isEmpty && delta.removed.isEmpty && delta.changed.isEmpty
    && delta.renamed.isEmpty

def map (f : α → β) (delta : Delta α) : Delta β where
  added := delta.added.map f
  removed := delta.removed.map f
  changed := delta.changed.map (Change.map f)
  renamed := delta.renamed.map (Change.map f)

/-- The old things that have no place on the new side in their old form. -/
def dropped (delta : Delta α) : List α :=
  delta.removed ++ delta.changed.map (·.old) ++ delta.renamed.map (·.old)

/-- The new things that have no place on the old side in their new form. -/
def created (delta : Delta α) : List α :=
  delta.added ++ delta.changed.map (·.new) ++ delta.renamed.map (·.new)

variable [Named α]

/-- The items whose name does not occur among the others. -/
def unmatched (items others : List α) : List α :=
  items.filter fun item => !Named.contains (Named.name item) others

/-- The old items that have a counterpart, beside it. -/
def matched (old new : List α) : List (Change α) :=
  old.filterMap fun item =>
    (Named.find? (Named.name item) new).map fun counterpart => ⟨item, counterpart⟩

/-- The lists of the difference follow the lists that are compared. -/
def unsorted (same mates : α → α → Bool) (old new : List α) : Delta α :=
  let pairing := pairOff mates (unmatched old new) (unmatched new old)
  { added := pairing.added
    removed := pairing.removed
    changed := (matched old new).filter fun change => !same change.old change.new
    renamed := pairing.pairs }

/-- Puts all lists of a difference in the order of the names. -/
def sorted (delta : Delta α) : Delta α where
  added := Named.sort delta.added
  removed := Named.sort delta.removed
  changed := Named.sort delta.changed
  renamed := Named.sort delta.renamed

def between (same mates : α → α → Bool) (old new : List α) : Delta α :=
  (unsorted same mates old new).sorted

end Delta

end SchemaDelta
