/-!
# Classes of characters given by ranges

A Unicode property is a finite set of code points, written down as its maximal
ranges.  The property modules hold one table each; membership and the algebra of
sets are the same for all of them.
-/

namespace SchemaDelta.Text

/-- A set of code points as inclusive ranges. -/
abbrev CharRanges := List (Nat × Nat)

namespace CharRanges

def hasPoint (ranges : CharRanges) (point : Nat) : Bool :=
  ranges.any fun range => range.1 ≤ point && point ≤ range.2

def has (ranges : CharRanges) (c : Char) : Bool :=
  ranges.hasPoint c.toNat

def ofPoints (points : List Nat) : CharRanges :=
  points.map fun point => (point, point)

/-! ## Normal form -/

/-- Joins a range with those that overlap or touch it. -/
def joinFrom (first last : Nat) : CharRanges → CharRanges
  | [] => [(first, last)]
  | (a, b) :: ranges =>
      if a ≤ last + 1 then joinFrom first (Nat.max last b) ranges
      else (first, last) :: joinFrom a b ranges

/-- The maximal ranges in order. -/
def normal (ranges : CharRanges) : CharRanges :=
  match ranges.mergeSort fun a b => a.1 ≤ b.1 with
  | [] => []
  | (first, last) :: ranges => joinFrom first last ranges

/-! ## Algebra -/

def surrogates : Nat × Nat := (0xd800, 0xdfff)

def lastPoint : Nat := 0x10ffff

/-- What is left out from `start` on. -/
def gaps (start : Nat) : CharRanges → CharRanges
  | [] => if start ≤ lastPoint then [(start, lastPoint)] else []
  | (a, b) :: ranges =>
      if start < a then (start, a - 1) :: gaps (b + 1) ranges else gaps (b + 1) ranges

/-- All other characters. -/
def complement (ranges : CharRanges) : CharRanges :=
  gaps 0 (normal (surrogates :: ranges))

def union (a b : CharRanges) : CharRanges :=
  normal (a ++ b)

def inter (a b : CharRanges) : CharRanges :=
  complement (union (complement a) (complement b))

def diff (a b : CharRanges) : CharRanges :=
  inter a (complement b)

def symmDiff (a b : CharRanges) : CharRanges :=
  union (diff a b) (diff b a)

/-- The characters from one to another. -/
def between (first last : Char) : CharRanges :=
  inter [(first.toNat, last.toNat)] (complement [])

end CharRanges

end SchemaDelta.Text
