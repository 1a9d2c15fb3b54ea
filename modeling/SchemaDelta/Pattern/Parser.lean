import SchemaDelta.Pattern.Basic
import SchemaDelta.Pattern.Beginning
import SchemaDelta.Pattern.Class
import SchemaDelta.Pattern.Program
import SchemaDelta.Text.Number

/-!
# Reading patterns

The notation has literals, the dot, anchors, groups, alternatives, repetition
with lazy forms, and bracketed character classes.  Patterns are read without
regard to case.  A pattern is refused if it is not well formed, nested too
deeply, or too large without being a list of texts.
-/

namespace SchemaDelta.Pattern

/-- A pattern with the depth to which its notation is nested. -/
structure Term where
  pattern : Pattern
  depth : Nat

namespace Term

def atom (pattern : Pattern) : Term :=
  ⟨pattern, 0⟩

/-- Joins terms; several ones are nested in what joins them. -/
def join (combine : List Pattern → Pattern) : List Term → Term
  | [term] => term
  | terms =>
      let depth := (terms.map (·.depth)).foldl Nat.max 0
      ⟨combine (terms.map (·.pattern)), if terms.isEmpty then 0 else depth + 1⟩

end Term

/-- A character without regard to case. -/
def ofChar (c : Char) : Pattern :=
  ofClass (withCase c)

/-- Any character but a line break. -/
def anyChar : Pattern :=
  ofClass (Text.CharRanges.complement [('\n'.toNat, '\n'.toNat)])

/-! ## Repetition -/

def skipSpaces (cs : List Char) : List Char :=
  cs.dropWhile Text.isBlank

/-- A number of 32 bits with blanks around it. -/
def count? (cs : List Char) : Option (Nat × List Char) :=
  let cs := skipSpaces cs
  (Text.word32? (cs.takeWhile Char.isDigit)).map fun n =>
    (n, skipSpaces (cs.dropWhile Char.isDigit))

/-- The bounds behind an opening brace, through the closing one. -/
def bounds? (cs : List Char) : Option ((Nat × Option Nat) × List Char) :=
  match count? cs with
  | none => none
  | some (min, '\x7d' :: rest) => some ((min, some min), rest)
  | some (min, ',' :: '\x7d' :: rest) => some ((min, none), rest)
  | some (min, ',' :: rest) =>
      match count? rest with
      | some (max, '\x7d' :: rest) =>
          if min ≤ max then some ((min, some max), rest) else none
      | _ => none
  | _ => none

/-- The repetition in front, if there is one; `none` for a malformed one. -/
def repetition? (cs : List Char) : Option (Option (Nat × Option Nat) × List Char) :=
  match cs with
  | '*' :: rest => some (some (0, none), rest)
  | '+' :: rest => some (some (1, none), rest)
  | '?' :: rest => some (some (0, some 1), rest)
  | '\x7b' :: rest => (bounds? rest).map fun (bounds, rest) => (some bounds, rest)
  | _ => some (none, cs)

/-- Applies the repetitions that follow. -/
def withRepetitions? (fuel : Nat) (term : Term) (cs : List Char) : Option (Term × List Char) :=
  match fuel with
  | 0 => none
  | fuel + 1 =>
      match repetition? cs with
      | none => none
      | some (none, rest) => some (term, rest)
      | some (some (min, max), rest) =>
          let isLazy := rest.head? = some '?'
          withRepetitions? fuel ⟨repeat' term.pattern min max isLazy, term.depth + 1⟩
            (if isLazy then rest.tail else rest)

/-! ## Expressions -/

def namedBoundary? (name : String) : Option Look :=
  match name with
  | "start" => some .wordStart
  | "end" => some .wordEnd
  | "start-half" => some .wordStartHalf
  | "end-half" => some .wordEndHalf
  | _ => none

/-- What stands behind a backslash and `b`.  A letter or a dash in braces begins
the name of a boundary; other braces repeat. -/
def boundary? (cs : List Char) : Option (Look × List Char) :=
  let isNameChar (c : Char) : Bool := c.isAlpha || c = '-'
  match cs with
  | '\x7b' :: rest =>
      if rest.head?.any isNameChar then
        match rest.dropWhile isNameChar with
        | '\x7d' :: rest' =>
            (namedBoundary? (String.ofList (rest.takeWhile isNameChar))).map (·, rest')
        | _ => none
      else if rest.isEmpty then none
      else some (.wordBoundary, cs)
  | cs => some (.wordBoundary, cs)

/-- What stands behind a backslash. -/
def escape? : List Char → Option (Pattern × List Char)
  | [] => none
  | 'A' :: cs => some (.look .textStart, cs)
  | 'z' :: cs => some (.look .textEnd, cs)
  | 'b' :: cs => (boundary? cs).map fun (condition, rest) => (.look condition, rest)
  | 'B' :: cs => some (.look .noWordBoundary, cs)
  | '<' :: cs => some (.look .wordStart, cs)
  | '>' :: cs => some (.look .wordEnd, cs)
  | c :: cs =>
      match escapedClass? c with
      | some set => some (ofClass set, cs)
      | none => (escapedChar? (c :: cs)).map fun (c, rest) => (ofChar c, rest)

/-- The group around what a parenthesis encloses, and what it encloses.  How much
of the notation is left marks the group. -/
def groupStart (cs : List Char) : (Pattern → Pattern) × List Char :=
  match cs with
  | '?' :: ':' :: rest => (id, rest)
  | cs => (fun inner => .group inner (cs.length + 1), cs)

mutual

/-- Alternatives, up to a closing parenthesis or the end. -/
def alternatives? (fuel : Nat) (cs : List Char) : Option (List Term × List Char) :=
  match fuel with
  | 0 => none
  | fuel + 1 =>
      match items? fuel cs with
      | none => none
      | some (items, rest) =>
          let first := Term.join inSequence items
          match rest with
          | '|' :: rest =>
              match alternatives? fuel rest with
              | some (others, rest) => some (first :: others, rest)
              | none => none
          | rest => some ([first], rest)

/-- Items in sequence, up to a bar, a closing parenthesis or the end. -/
def items? (fuel : Nat) (cs : List Char) : Option (List Term × List Char) :=
  match fuel with
  | 0 => none
  | fuel + 1 =>
      if cs.isEmpty ∨ cs.head? = some '|' ∨ cs.head? = some ')' then
        some ([], cs)
      else
        match item? fuel cs with
        | none => none
        | some (item, rest) =>
            match withRepetitions? fuel item rest with
            | none => none
            | some (item, rest) =>
                match items? fuel rest with
                | some (others, rest) => some (item :: others, rest)
                | none => none

def item? (fuel : Nat) (cs : List Char) : Option (Term × List Char) :=
  match fuel with
  | 0 => none
  | fuel + 1 =>
      match cs with
      | '(' :: rest =>
          let (enclose, rest) := groupStart rest
          match alternatives? fuel rest with
          | some (terms, ')' :: rest) =>
              let inner := Term.join inChoice terms
              some (⟨enclose inner.pattern, inner.depth + 1⟩, rest)
          | _ => none
      | '[' :: rest =>
          (classBody? fuel rest).map fun ((set, depth), rest) => (⟨ofClass set, depth⟩, rest)
      | '.' :: rest => some (.atom anyChar, rest)
      | '^' :: rest => some (.atom (.look .textStart), rest)
      | '$' :: rest => some (.atom (.look .textEnd), rest)
      | '\\' :: rest => (escape? rest).map fun (pattern, rest) => (.atom pattern, rest)
      | c :: rest =>
          if c ∈ ['*', '+', '?', '\x7b'] then none else some (.atom (ofChar c), rest)
      | [] => none

end

/-- How deep the notation may be nested. -/
def nestingLimit : Nat := 250

/-- Reads a pattern.  No reader calls another one more often than three times
without taking a character. -/
def ofText? (text : String) : Option Pattern :=
  let chars := text.toList
  match alternatives? (4 * chars.length + 4) chars with
  | some (terms, []) =>
      let term := Term.join inChoice terms
      if term.depth ≤ nestingLimit && (term.pattern.isSmall || term.pattern.isTextList) then
        some term.pattern
      else none
  | _ => none

end SchemaDelta.Pattern
