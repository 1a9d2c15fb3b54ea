/-!
# Maps in ascending order of their keys

A finite map from texts is the list of its entries, ascending strictly by key.
Two maps with the same entries are therefore equal.
-/

namespace SchemaDelta

structure SortedMap (α : Type) where
  entries : List (String × α)
  ascending : entries.Pairwise (fun a b => a.1 < b.1)

namespace SortedMap

variable {α : Type}

@[ext] theorem ext {m n : SortedMap α} (h : m.entries = n.entries) : m = n := by
  cases m
  cases n
  simp_all

instance [DecidableEq α] : DecidableEq (SortedMap α) := fun m n =>
  if h : m.entries = n.entries then
    isTrue (ext h)
  else
    isFalse fun heq => h (congrArg entries heq)

def empty : SortedMap α :=
  ⟨[], .nil⟩

instance : Inhabited (SortedMap α) := ⟨empty⟩

def keys (m : SortedMap α) : List String :=
  m.entries.map (·.1)

def values (m : SortedMap α) : List α :=
  m.entries.map (·.2)

def size (m : SortedMap α) : Nat :=
  m.entries.length

def isEmpty (m : SortedMap α) : Bool :=
  m.entries.isEmpty

def get? (m : SortedMap α) (key : String) : Option α :=
  (m.entries.find? (·.1 == key)).map (·.2)

def contains (m : SortedMap α) (key : String) : Bool :=
  m.entries.any (·.1 == key)

/-- Puts a value at a key, in place of the one that may be there. -/
def insertEntry (key : String) (value : α) : List (String × α) → List (String × α)
  | [] => [(key, value)]
  | entry :: entries =>
      if key < entry.1 then (key, value) :: entry :: entries
      else if key = entry.1 then (key, value) :: entries
      else entry :: insertEntry key value entries

theorem mem_insertEntry {key : String} {value : α} {entries : List (String × α)}
    {entry : String × α} (h : entry ∈ insertEntry key value entries) :
    entry = (key, value) ∨ entry ∈ entries := by
  induction entries with
  | nil => exact Or.inl (by simpa [insertEntry] using h)
  | cons first entries ih =>
      rw [insertEntry] at h
      split at h
      next =>
        rcases List.mem_cons.mp h with rfl | h
        · exact Or.inl rfl
        · exact Or.inr h
      next =>
        split at h
        next =>
          rcases List.mem_cons.mp h with rfl | h
          · exact Or.inl rfl
          · exact Or.inr (List.mem_cons_of_mem _ h)
        next =>
          rcases List.mem_cons.mp h with rfl | h
          · exact Or.inr List.mem_cons_self
          · exact (ih h).imp id (List.mem_cons_of_mem _)

theorem pairwise_insertEntry {key : String} {value : α} {entries : List (String × α)}
    (h : entries.Pairwise (fun a b => a.1 < b.1)) :
    (insertEntry key value entries).Pairwise (fun a b => a.1 < b.1) := by
  induction entries with
  | nil => simp [insertEntry]
  | cons first entries ih =>
      rcases List.pairwise_cons.mp h with ⟨hfirst, hrest⟩
      rw [insertEntry]
      split
      next hlt =>
        refine List.pairwise_cons.mpr ⟨fun entry hentry => ?_, h⟩
        rcases List.mem_cons.mp hentry with rfl | hentry
        · exact hlt
        · exact String.lt_trans hlt (hfirst entry hentry)
      next hnotlt =>
        split
        next heq =>
          exact List.pairwise_cons.mpr ⟨fun entry hentry => heq ▸ hfirst entry hentry, hrest⟩
        next hne =>
          refine List.pairwise_cons.mpr ⟨fun entry hentry => ?_, ih hrest⟩
          rcases mem_insertEntry hentry with rfl | hentry
          · have hle : first.1 ≤ key := String.not_lt.mp hnotlt
            exact Decidable.byContradiction fun h =>
              hne (String.le_antisymm (String.not_lt.mp h) hle)
          · exact hfirst entry hentry

def insert (m : SortedMap α) (key : String) (value : α) : SortedMap α :=
  ⟨insertEntry key value m.entries, pairwise_insertEntry m.ascending⟩

def erase (m : SortedMap α) (key : String) : SortedMap α :=
  ⟨m.entries.filter (·.1 ≠ key), m.ascending.filter _⟩

def filterValues (m : SortedMap α) (test : α → Bool) : SortedMap α :=
  ⟨m.entries.filter fun entry => test entry.2, m.ascending.filter _⟩

/-- The last value of a key counts. -/
def ofList (entries : List (String × α)) : SortedMap α :=
  entries.foldl (fun m entry => m.insert entry.1 entry.2) empty

end SortedMap

end SchemaDelta
