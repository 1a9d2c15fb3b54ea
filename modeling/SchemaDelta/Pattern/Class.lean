import SchemaDelta.Text.Blank
import SchemaDelta.Text.CaseFold
import SchemaDelta.Text.WordChar

/-!
# Reading classes of characters

A bracketed class has characters, ranges, named classes and further brackets, and
operators between them.  All sets are closed under differences of case, and so
are their complements.  Readers take the rest of the notation and give what they
read with what follows; `none` stands for a class that is not well formed.
-/

namespace SchemaDelta.Pattern

/-! ## Escapes -/

/-- Characters that a backslash takes literally. -/
def isEscapable (c : Char) : Bool :=
  c.toNat < 0x80 && !c.isAlphanum && c ≠ '<' && c ≠ '>'

/-- The classes that a letter behind a backslash names. -/
def escapedClass? (c : Char) : Option Text.CharRanges :=
  match c with
  | 'd' => some Text.decimalRanges
  | 'D' => some Text.decimalRanges.complement
  | 's' => some Text.blankRanges
  | 'S' => some Text.blankRanges.complement
  | 'w' => some Text.wordRanges
  | 'W' => some Text.wordRanges.complement
  | _ => none

def hexValue? (c : Char) : Option Nat :=
  if c.isDigit then some (c.toNat - '0'.toNat)
  else if 'a' ≤ c && c ≤ 'f' then some (c.toNat - 'a'.toNat + 10)
  else if 'A' ≤ c && c ≤ 'F' then some (c.toNat - 'A'.toNat + 10)
  else none

/-- The character with a code point in hexadecimal digits. -/
def codePoint? (digits : List Char) : Option Char := do
  let values ← digits.mapM hexValue?
  let point := values.foldl (fun n value => 16 * n + value) 0
  if digits ≠ [] ∧ point.isValidChar then some (Char.ofNat point) else none

/-- A code point in braces, or in a fixed number of digits. -/
def codePointEscape? (digits : Nat) : List Char → Option (Char × List Char)
  | '\x7b' :: cs =>
      match cs.dropWhile (· ≠ '\x7d') with
      | _ :: rest => (codePoint? (cs.takeWhile (· ≠ '\x7d'))).map (·, rest)
      | [] => none
  | cs =>
      if cs.length < digits then none
      else (codePoint? (cs.take digits)).map (·, cs.drop digits)

/-- The character that is meant by what stands behind a backslash. -/
def escapedChar? : List Char → Option (Char × List Char)
  | 'a' :: cs => some ('\x07', cs)
  | 'f' :: cs => some ('\x0c', cs)
  | 'n' :: cs => some ('\n', cs)
  | 'r' :: cs => some ('\r', cs)
  | 't' :: cs => some ('\t', cs)
  | 'v' :: cs => some ('\x0b', cs)
  | 'x' :: cs => codePointEscape? 2 cs
  | 'u' :: cs => codePointEscape? 4 cs
  | 'U' :: cs => codePointEscape? 8 cs
  | c :: cs => if isEscapable c then some (c, cs) else none
  | [] => none

/-! ## Items -/

def withCase (c : Char) : Text.CharRanges :=
  Text.CharRanges.closeCase [(c.toNat, c.toNat)]

/-- One end of a range, or a class by itself. -/
inductive ClassItem
  | char (c : Char)
  | members (set : Text.CharRanges)

def ClassItem.toSet : ClassItem → Text.CharRanges
  | char c => withCase c
  | members set => set

def classItem? : List Char → Option (ClassItem × List Char)
  | [] => none
  | '\\' :: cs =>
      match cs.head?.bind escapedClass? with
      | some set => some (.members set, cs.tail)
      | none => (escapedChar? cs).map fun (c, rest) => (.char c, rest)
  | c :: cs => some (.char c, cs)

def classRange? (cs : List Char) : Option (Text.CharRanges × List Char) :=
  match classItem? cs with
  | none => none
  | some (first, rest) =>
      match rest with
      | '-' :: next :: rest' =>
          if next = ']' ∨ next = '-' then
            some (first.toSet, rest)
          else
            match first, classItem? (next :: rest') with
            | .char a, some (.char b, rest'') =>
                if a ≤ b then some ((Text.CharRanges.between a b).closeCase, rest'') else none
            | _, _ => none
      | ['-'] => none
      | _ => some (first.toSet, rest)

/-- The classes between colons. -/
def namedRanges? (name : String) : Option (List (Char × Char)) :=
  match name with
  | "alnum" => some [('0', '9'), ('A', 'Z'), ('a', 'z')]
  | "alpha" => some [('A', 'Z'), ('a', 'z')]
  | "ascii" => some [('\x00', '\x7f')]
  | "blank" => some [('\t', '\t'), (' ', ' ')]
  | "cntrl" => some [('\x00', '\x1f'), ('\x7f', '\x7f')]
  | "digit" => some [('0', '9')]
  | "graph" => some [('!', '~')]
  | "lower" => some [('a', 'z')]
  | "print" => some [(' ', '~')]
  | "punct" => some [('!', '/'), (':', '@'), ('[', '\x60'), ('\x7b', '~')]
  | "space" => some [('\t', '\r'), (' ', ' ')]
  | "upper" => some [('A', 'Z')]
  | "word" => some [('0', '9'), ('A', 'Z'), ('_', '_'), ('a', 'z')]
  | "xdigit" => some [('0', '9'), ('A', 'F'), ('a', 'f')]
  | _ => none

/-- A named class behind its opening bracket, up to the closing one. -/
def namedClass? : List Char → Option (Text.CharRanges × List Char)
  | ':' :: cs =>
      let negated := cs.head? = some '^'
      let body := if negated then cs.tail else cs
      match body.dropWhile (· ≠ ':') with
      | ':' :: ']' :: rest =>
          (namedRanges? (String.ofList (body.takeWhile (· ≠ ':')))).map fun ranges =>
            let set := Text.CharRanges.closeCase (ranges.map fun (a, b) => (a.toNat, b.toNat))
            (if negated then set.complement else set, rest)
      | _ => none
  | _ => none

/-! ## Brackets -/

/-- What is read of a class: its members, the number of its items, and how deep
they are nested. -/
structure ClassPart where
  members : Text.CharRanges := []
  items : Nat := 0
  depth : Nat := 0

namespace ClassPart

def add (part : ClassPart) (members : Text.CharRanges) (depth : Nat) : ClassPart :=
  ⟨part.members.union members, part.items + 1, Nat.max part.depth depth⟩

/-- Several items are nested in what joins them. -/
def nesting (part : ClassPart) : Nat :=
  if part.items ≤ 1 then part.depth else part.depth + 1

end ClassPart

inductive SetOp
  | inter
  | diff
  | symmDiff

def SetOp.apply : SetOp → Text.CharRanges → Text.CharRanges → Text.CharRanges
  | inter => .inter
  | diff => .diff
  | symmDiff => .symmDiff

/-- What stands in front of an operator: the members and their nesting. -/
structure Pending where
  members : Text.CharRanges
  depth : Nat
  op : SetOp

/-- Joins what stands in front of an operator with what follows it. -/
def joinSets (pending : Option Pending) (part : ClassPart) : Text.CharRanges × Nat :=
  match pending with
  | none => (part.members, part.nesting)
  | some left =>
      (left.op.apply left.members part.members, Nat.max left.depth part.nesting + 1)

/-- The dashes and the bracket that may come first in a class and stand for
themselves. -/
def classLead (cs : List Char) : ClassPart × List Char :=
  match cs.takeWhile (· = '-'), cs.dropWhile (· = '-') with
  | [], ']' :: rest => (({} : ClassPart).add (withCase ']') 0, rest)
  | dashes, rest => (dashes.foldl (fun part c => part.add (withCase c) 0) {}, rest)

mutual

/-- A class behind its opening bracket, with its nesting. -/
def classBody? (fuel : Nat) (cs : List Char) :
    Option ((Text.CharRanges × Nat) × List Char) :=
  let negated := cs.head? = some '^'
  let (lead, rest) := classLead (if negated then cs.tail else cs)
  match classRest? fuel none lead rest with
  | some ((set, depth), rest) =>
      some ((if negated then set.complement else set, depth + 1), rest)
  | none => none

/-- The rest of a class: `pending` stands in front of an operator, and `part`
behind it. -/
def classRest? (fuel : Nat) (pending : Option Pending) (part : ClassPart)
    (cs : List Char) : Option ((Text.CharRanges × Nat) × List Char) :=
  match fuel with
  | 0 => none
  | fuel + 1 =>
      let operator (op : SetOp) (rest : List Char) :=
        let (members, depth) := joinSets pending part
        classRest? fuel (some ⟨members, depth, op⟩) {} rest
      match cs with
      | [] => none
      | ']' :: rest => some (joinSets pending part, rest)
      | '&' :: '&' :: rest => operator .inter rest
      | '-' :: '-' :: rest => operator .diff rest
      | '~' :: '~' :: rest => operator .symmDiff rest
      | '[' :: rest =>
          match namedClass? rest with
          | some (set, rest) => classRest? fuel pending (part.add set 0) rest
          | none =>
              match classBody? fuel rest with
              | some ((set, depth), rest) => classRest? fuel pending (part.add set depth) rest
              | none => none
      | cs =>
          match classRange? cs with
          | some (set, rest) => classRest? fuel pending (part.add set 0) rest
          | none => none

end

end SchemaDelta.Pattern
