import SchemaDelta.Text.ByteRanges
import SchemaDelta.Text.CharClass

/-!
# Patterns

Regular expressions in a normal form: texts next to each other are one text,
sequences and choices do not nest in themselves, a choice between single
characters is a class, and what all branches of a choice begin with stands in
front of it.  The functions that build patterns keep this form.
-/

namespace SchemaDelta

/-- What can be asked about a position. -/
inductive Look
  | textStart
  | textEnd
  | wordBoundary
  | noWordBoundary
  | wordStart
  | wordEnd
  /-- No word character in front. -/
  | wordStartHalf
  /-- No word character behind. -/
  | wordEndHalf
  deriving Repr, DecidableEq

inductive Pattern
  | empty
  /-- One character or more. -/
  | literal (text : List Char)
  /-- One character of a class. -/
  | oneOf (members : Text.CharRanges)
  | look (condition : Look)
  /-- A group in parentheses; no two groups have the same mark. -/
  | group (inner : Pattern) (mark : Nat)
  /-- At least `min` times, and at most `max` times if there is a limit.  A lazy
  repetition prefers to stop. -/
  | repeated (inner : Pattern) (min : Nat) (max : Option Nat) (isLazy : Bool)
  | sequence (first rest : Pattern)
  | either (first rest : Pattern)
  deriving Repr, DecidableEq, Inhabited

namespace Pattern

/-! ## Lengths of matches, in bytes -/

def encodedLength (text : List Char) : Nat :=
  text.foldl (fun n c => n + c.utf8Size) 0

/-- The least length; there is none if nothing matches. -/
def minLength? : Pattern → Option Nat
  | empty | look _ => some 0
  | literal text => some (encodedLength text)
  | oneOf members => members.head?.map fun range => (Text.utf8Bytes range.1).length
  | group inner _ => inner.minLength?
  | repeated inner min _ _ => inner.minLength?.map (min * ·)
  | sequence first rest =>
      match first.minLength?, rest.minLength? with
      | some a, some b => some (a + b)
      | _, _ => none
  | either first rest =>
      match first.minLength?, rest.minLength? with
      | some a, some b => some (Nat.min a b)
      | _, _ => none

/-- The greatest length; there is none if there is no limit, or if nothing
matches. -/
def maxLength? : Pattern → Option Nat
  | empty | look _ => some 0
  | literal text => some (encodedLength text)
  | oneOf members => members.getLast?.map fun range => (Text.utf8Bytes range.2).length
  | group inner _ => inner.maxLength?
  | repeated inner _ max _ =>
      match inner.maxLength?, max with
      | some a, some max => some (max * a)
      | _, _ => none
  | sequence first rest =>
      match first.maxLength?, rest.maxLength? with
      | some a, some b => some (a + b)
      | _, _ => none
  | either first rest =>
      match first.maxLength?, rest.maxLength? with
      | some a, some b => some (Nat.max a b)
      | _, _ => none

/-! ## Building -/

/-- The pattern for a class.  A class of one character is that character. -/
def ofClass (members : Text.CharRanges) : Pattern :=
  match members with
  | [(a, b)] => if a = b then literal [Char.ofNat a] else oneOf members
  | _ => oneOf members

/-- Repeats a pattern.  What matches only the empty text need not be repeated. -/
def repeat' (inner : Pattern) (min : Nat) (max : Option Nat) (isLazy : Bool) : Pattern :=
  let isEmpty := inner.maxLength? = some 0
  let min := if isEmpty then Nat.min min 1 else min
  let max := if isEmpty then some (Nat.min (max.getD 1) 1) else max
  if min = 0 && max = some 0 then empty
  else if min = 1 && max = some 1 then inner
  else repeated inner min max isLazy

def parts : Pattern → List Pattern
  | empty => []
  | sequence first rest => first :: rest.parts
  | pattern => [pattern]

def joinLiterals : List Pattern → List Pattern
  | [] => []
  | literal text :: patterns =>
      match joinLiterals patterns with
      | literal more :: rest => literal (text ++ more) :: rest
      | rest => literal text :: rest
  | pattern :: patterns => pattern :: joinLiterals patterns

def nestSequence : List Pattern → Pattern
  | [] => empty
  | [pattern] => pattern
  | pattern :: patterns => sequence pattern (nestSequence patterns)

def inSequence (patterns : List Pattern) : Pattern :=
  nestSequence (joinLiterals (patterns.flatMap parts))

def branches : Pattern → List Pattern
  | either first rest => first :: rest.branches
  | pattern => [pattern]

def nestChoice : List Pattern → Pattern
  | [] => oneOf []
  | [pattern] => pattern
  | pattern :: patterns => either pattern (nestChoice patterns)

def character? : Pattern → Option Nat
  | literal [c] => some c.toNat
  | _ => none

def class? : Pattern → Option Text.CharRanges
  | oneOf members => some members
  | _ => none

def commonFront {α : Type} [DecidableEq α] : List α → List α → List α
  | a :: as, b :: bs => if a = b then a :: commonFront as bs else []
  | _, _ => []

def sharedFront {α : Type} [DecidableEq α] : List (List α) → List α
  | [] => []
  | first :: others => others.foldl commonFront first

/-- The parts that all branches begin with, if all are sequences. -/
def sharedParts (patterns : List Pattern) : List Pattern :=
  let parts := patterns.map parts
  if parts.all (1 < ·.length) then sharedFront parts else []

/-- Makes a choice of branches that are no choices themselves.  Putting shared
parts in front leaves shorter branches. -/
def chooseWithin (fuel : Nat) (patterns : List Pattern) : Pattern :=
  match patterns with
  | [] => oneOf []
  | [pattern] => pattern
  | patterns =>
      match patterns.mapM character?, patterns.mapM class? with
      | some points, _ => ofClass (.normal (.ofPoints points))
      | none, some classes => ofClass (.normal classes.flatten)
      | none, none =>
          match fuel, sharedParts patterns with
          | fuel + 1, part :: shared =>
              let rests := patterns.map fun pattern =>
                inSequence (pattern.parts.drop (shared.length + 1))
              inSequence (part :: shared ++ [chooseWithin fuel (rests.flatMap branches)])
          | _, _ => nestChoice patterns

/-- The first of the branches that matches. -/
def inChoice (patterns : List Pattern) : Pattern :=
  let patterns := patterns.flatMap branches
  chooseWithin (patterns.map (·.parts.length) |>.foldl Nat.max 0) patterns

/-! ## Choices of texts -/

/-- The texts of a choice that has nothing else. -/
def texts? : Pattern → Option (List (List Char))
  | literal text => some [text]
  | either first rest =>
      match first.texts?, rest.texts? with
      | some a, some b => some (a ++ b)
      | _, _ => none
  | _ => none

end Pattern

end SchemaDelta
