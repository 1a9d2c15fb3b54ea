import SchemaDelta.Pattern.Basic
import SchemaDelta.Text.WordChar

/-!
# Matching

A pattern relates the positions of a text where a match may begin to those where
it may end.  The relation has one row for each position, the last one included:
bit `d` of a row says that a match can end `d` characters further on.  A pattern
occurs in a text if some row is not zero.
-/

namespace SchemaDelta.Pattern

/-- The character in front, and the rest of the text. -/
abbrev Position := Option Char × List Char

def positions (before : Option Char) : List Char → List Position
  | [] => [(before, [])]
  | c :: cs => (before, c :: cs) :: positions (some c) cs

abbrev Rows := List Nat

/-- The positions that the rows lead to from a set of positions, which are bits
as well: bit `d` stands for the row number `d`. -/
def advance (bits : Nat) : Rows → Nat
  | [] => 0
  | row :: rows =>
      if bits = 0 then 0
      else (if bits % 2 = 1 then row else 0) ||| (2 * advance (bits / 2) rows)

/-- One match behind the other. -/
def compose : Rows → Rows → Rows
  | [], _ => []
  | bits :: first, second => advance bits second :: compose first second.tail

/-- The positions that closed rows lead to.  Where a closed row leads to, nothing
new can be reached from. -/
def advanceClosed (bits : Nat) : Rows → Nat
  | [] => 0
  | row :: rows =>
      if bits = 0 then 0
      else if bits % 2 = 1 then
        let later := bits / 2
        row ||| (2 * advanceClosed (later ^^^ (later &&& row / 2)) rows)
      else
        2 * advanceClosed (bits / 2) rows

/-- Any number of matches one behind the other.  Matches never go back, so the
rows behind a position are closed when its own row is made. -/
def closure : Rows → Rows
  | [] => []
  | bits :: rows =>
      let later := closure rows
      (1 ||| (2 * advanceClosed (bits / 2) later)) :: later

def power (rows : Rows) (n : Nat) : Rows :=
  if h : n = 0 then
    rows.map fun _ => 1
  else
    let half := power rows (n / 2)
    let square := compose half half
    if n % 2 = 1 then compose square rows else square
termination_by n

def isWord (c : Option Char) : Bool :=
  c.any Text.isWordChar

def Look.holds (condition : Look) (position : Position) : Bool :=
  let before := isWord position.1
  let after := isWord position.2.head?
  match condition with
  | .textStart => position.1.isNone
  | .textEnd => position.2.isEmpty
  | .wordBoundary => before != after
  | .noWordBoundary => before == after
  | .wordStart => !before && after
  | .wordEnd => before && !after
  | .wordStartHalf => !before
  | .wordEndHalf => !after

/-- The relation of a pattern.  Repeating it more often than there are positions
reaches nothing new. -/
def rows (text : List Position) : Pattern → Rows
  | empty => text.map fun _ => 1
  | literal chars =>
      text.map fun position =>
        if chars.isPrefixOf position.2 then Nat.pow 2 chars.length else 0
  | oneOf members =>
      text.map fun position => if position.2.head?.any members.has then 2 else 0
  | look condition => text.map fun position => if Look.holds condition position then 1 else 0
  | group inner _ => rows text inner
  | repeated inner min max _ =>
      let once := rows text inner
      let required := power once (Nat.min min text.length)
      match max with
      | none => compose required (closure once)
      | some max =>
          compose required (power (once.map (1 ||| ·)) (Nat.min (max - min) text.length))
  | sequence first rest => compose (rows text first) (rows text rest)
  | either first rest => (rows text first).zipWith (· ||| ·) (rows text rest)

def occursIn (pattern : Pattern) (text : String) : Bool :=
  (rows (positions none text.toList) pattern).any (· ≠ 0)

end SchemaDelta.Pattern
