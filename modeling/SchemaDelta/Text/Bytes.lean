/-!
# Byte positions in a text

Positions count the bytes of the UTF-8 form.  A position is a boundary of a text
when some number of whole characters ends there; only boundaries cut a text.
-/

namespace SchemaDelta.Text

def byteLength : List Char → Nat
  | [] => 0
  | c :: cs => c.utf8Size + byteLength cs

@[simp] theorem byteLength_nil : byteLength [] = 0 := rfl

@[simp] theorem byteLength_cons (c : Char) (cs : List Char) :
    byteLength (c :: cs) = c.utf8Size + byteLength cs := rfl

@[simp] theorem byteLength_append (as bs : List Char) :
    byteLength (as ++ bs) = byteLength as + byteLength bs := by
  induction as with
  | nil => simp
  | cons a as ih => rw [List.cons_append, byteLength_cons, byteLength_cons, ih, Nat.add_assoc]

theorem exists_of_map_front {cut : Option (List Char × List Char)}
    {f : List Char × List Char → List Char × List Char} {g : List Char → List Char}
    {front back : List Char} (h : cut.map f = some (front, back))
    (hf : ∀ text rest, f (text, rest) = (g text, rest)) :
    ∃ text, cut = some (text, back) ∧ g text = front := by
  obtain ⟨⟨text, rest⟩, hcut, heq⟩ := Option.map_eq_some_iff.mp h
  rw [hf, Prod.mk.injEq] at heq
  obtain ⟨rfl, rfl⟩ := heq
  exact ⟨text, hcut, rfl⟩

/-- Cuts the text after its first `n` bytes, if that is a boundary. -/
def splitAtByte? : Nat → List Char → Option (List Char × List Char)
  | 0, cs => some ([], cs)
  | _ + 1, [] => none
  | n + 1, c :: cs =>
      if c.utf8Size ≤ n + 1 then
        (splitAtByte? (n + 1 - c.utf8Size) cs).map fun (front, back) =>
          (c :: front, back)
      else
        none

theorem append_of_splitAtByte? {n : Nat} {cs front back : List Char}
    (h : splitAtByte? n cs = some (front, back)) :
    front ++ back = cs ∧ byteLength front = n := by
  induction cs generalizing n front with
  | nil =>
      cases n with
      | zero => simp_all [splitAtByte?]
      | succ n => simp [splitAtByte?] at h
  | cons c cs ih =>
      cases n with
      | zero => simp_all [splitAtByte?]
      | succ n =>
          simp only [splitAtByte?] at h
          split at h
          next hle =>
            obtain ⟨front', hcut, rfl⟩ := exists_of_map_front h fun _ _ => rfl
            obtain ⟨happend, hlength⟩ := ih hcut
            refine ⟨by simp [happend], ?_⟩
            rw [byteLength_cons, hlength]
            omega
          next => simp at h

/-- The text behind its first `n` bytes, if that is a boundary. -/
def dropBytes? : Nat → List Char → Option (List Char)
  | 0, cs => some cs
  | _ + 1, [] => none
  | n + 1, c :: cs =>
      if c.utf8Size ≤ n + 1 then dropBytes? (n + 1 - c.utf8Size) cs else none

theorem dropBytes?_eq (n : Nat) (cs : List Char) :
    dropBytes? n cs = (splitAtByte? n cs).map (·.2) := by
  induction cs generalizing n with
  | nil => cases n <;> simp [dropBytes?, splitAtByte?]
  | cons c cs ih =>
      cases n with
      | zero => simp [dropBytes?, splitAtByte?]
      | succ n =>
          rw [dropBytes?, splitAtByte?]
          split
          next => simp [ih, Function.comp_def]
          next => rfl

/-- The text from byte `start` up to byte `stop`; nothing unless both are
boundaries in this order. -/
def slice (start stop : Nat) (cs : List Char) : List Char :=
  match dropBytes? start cs with
  | none => []
  | some back =>
      if start ≤ stop then
        match splitAtByte? (stop - start) back with
        | none => []
        | some (middle, _) => middle
      else
        []

end SchemaDelta.Text
