import SchemaDelta.Pattern.Basic

/-!
# What matches begin with

The matches of a pattern begin with certain texts.  If these are few and each of
them is a whole match, the pattern is looked for as a list of texts and needs no
program.  Texts are in order of preference: one that begins with another one in
front of it is never needed.

The list is given up where it becomes too long, and a text is cut where it becomes
too long itself.  A list is also given up for something shorter that is rare
enough in what is searched.
-/

namespace SchemaDelta.Pattern

/-- The bytes that a match begins with, and whether they are the whole match. -/
structure Beginning where
  bytes : List Nat
  isWhole : Bool
  deriving Repr, DecidableEq

namespace Beginning

def ofText (text : List Char) : Beginning :=
  ⟨text.flatMap fun c => Text.utf8Bytes c.toNat, true⟩

/-- The beginning of a match that goes on. -/
def unfinished (beginning : Beginning) : Beginning :=
  ⟨beginning.bytes, false⟩

/-- At most the first `length` bytes. -/
def cut (length : Nat) (beginning : Beginning) : Beginning :=
  if beginning.bytes.length ≤ length then beginning
  else ⟨beginning.bytes.take length, false⟩

def append (first second : Beginning) : Beginning :=
  ⟨first.bytes ++ second.bytes, second.isWhole⟩

/-- Makes one of neighbours with the same bytes. -/
def merge (list : List Beginning) : List Beginning :=
  list.foldr (fun beginning merged =>
    match merged with
    | next :: others =>
        if beginning.bytes = next.bytes then
          ⟨beginning.bytes, beginning.isWhole && next.isWhole⟩ :: others
        else
          beginning :: merged
    | [] => [beginning]) []

/-- Leaves out what begins with one in front of it. -/
def minimal (list : List Beginning) : List Beginning :=
  list.foldl (fun kept beginning =>
    if kept.any (·.bytes.isPrefixOf beginning.bytes) then kept else kept ++ [beginning]) []

end Beginning

/-! ## The beginnings of a pattern -/

inductive Beginnings
  /-- Too many to list them. -/
  | anything
  | among (list : List Beginning)
  deriving Repr, DecidableEq

namespace Beginnings

def countLimit : Nat := 250

def lengthLimit : Nat := 100

def classLimit : Nat := 10

def copyLimit : Nat := 10

def ofEmpty : Beginnings :=
  among [⟨[], true⟩]

/-- The members of a class, if they are few. -/
def ofClass (members : Text.CharRanges) : Beginnings :=
  if (members.map fun range => range.2 + 1 - range.1).foldl (· + ·) 0 ≤ classLimit then
    among (members.flatMap fun (first, last) =>
      (List.range (last + 1 - first)).map fun i => ⟨Text.utf8Bytes (first + i), true⟩)
  else
    anything

def unfinished : Beginnings → Beginnings
  | anything => anything
  | among list => among (list.map Beginning.unfinished)

/-- Whether no beginning can be continued. -/
def isSettled : Beginnings → Bool
  | anything => true
  | among list => list.all fun beginning => !beginning.isWhole

/-- Continues each whole match in front with what follows. -/
def append : Beginnings → Beginnings → Beginnings
  | anything, _ => anything
  | among first, anything => continued first
  | among first, among second =>
      if first.length * second.length ≤ countLimit then
        let longer := first.flatMap fun beginning =>
          if beginning.isWhole then second.map beginning.append else [beginning]
        among ((Beginning.merge longer).map (Beginning.cut lengthLimit))
      else
        continued first
where
  /-- Continued with anything. -/
  continued (first : List Beginning) : Beginnings :=
    if first.any (·.bytes.isEmpty) then anything else among (first.map Beginning.unfinished)

/-- One list behind the other.  If they are too long together they are tried once
more with shorter beginnings. -/
def orElse : Beginnings → Beginnings → Beginnings
  | among first, among second =>
      if first.length + second.length ≤ countLimit then
        among (Beginning.merge (first ++ second))
      else
        let first := Beginning.merge (first.map (Beginning.cut 4))
        let second := Beginning.merge (second.map (Beginning.cut 4))
        if first.length + second.length ≤ countLimit then
          among (Beginning.merge (first ++ second))
        else
          anything
  | _, _ => anything

end Beginnings

/-- How the beginnings of a pattern join what was found in front of it. -/
inductive Joining
  | alone
  /-- The pattern follows in a sequence. -/
  | inSequence
  /-- The pattern is the next branch of a choice. -/
  | inChoice

def Joining.apply (joining : Joining) (found next : Beginnings) : Beginnings :=
  match joining with
  | alone => next
  | inSequence => if found.isSettled then found else found.append next
  | inChoice => found.orElse next

/-- The beginnings of up to ten copies. -/
def copiedBeginnings (once : Beginnings) (copies : Nat) : Beginnings :=
  (List.range (Nat.min copies Beginnings.copyLimit)).foldl
    (fun found _ => Joining.inSequence.apply found once) .ofEmpty

def repeatedBeginnings (once : Beginnings) (min : Nat) (max : Option Nat) (isLazy : Bool) :
    Beginnings :=
  if min = 0 then
    let copies := if max = some 1 then once else once.unfinished
    if isLazy then Beginnings.ofEmpty.orElse copies else copies.orElse .ofEmpty
  else
    let found := copiedBeginnings once min
    if max = some min && min ≤ Beginnings.copyLimit then found else found.unfinished

/-- Joins the beginnings of a pattern with what was found in front of it. -/
def joinBeginnings : Pattern → Joining → Beginnings → Beginnings
  | empty, joining, found | look _, joining, found => joining.apply found .ofEmpty
  | literal text, joining, found =>
      joining.apply found
        (.among [(Beginning.ofText text).cut Beginnings.lengthLimit])
  | oneOf members, joining, found => joining.apply found (.ofClass members)
  | group inner _, joining, found =>
      joining.apply found (joinBeginnings inner .alone .ofEmpty)
  | repeated inner min max isLazy, joining, found =>
      joining.apply found
        (repeatedBeginnings (joinBeginnings inner .alone .ofEmpty) min max isLazy)
  | sequence first rest, joining, found =>
      match joining with
      | .inSequence => joinBeginnings rest .inSequence (joinBeginnings first .inSequence found)
      | joining =>
          joining.apply found
            (joinBeginnings rest .inSequence (joinBeginnings first .inSequence .ofEmpty))
  | either first rest, joining, found =>
      match joining with
      | .inChoice => joinBeginnings rest .inChoice (joinBeginnings first .inChoice found)
      | joining =>
          joining.apply found
            (joinBeginnings rest .inChoice (joinBeginnings first .inChoice (.among [])))

def beginnings (pattern : Pattern) : Beginnings :=
  joinBeginnings pattern .alone .ofEmpty

/-! ## Patterns that are lists of texts -/

/-- Characters that occur so often that looking for one alone does not pay.  All
bytes beyond the first 128 count as frequent too. -/
def frequentChars : List Char :=
  "\n\r (),-./0129:_abcdefghilmnoprstuvxy|".toList

def isRareByte (byte : Nat) : Bool :=
  byte < 0x80 && !frequentChars.contains (Char.ofNat byte)

/-- Shortens many beginnings, and very many even more. -/
def shorten (list : List Beginning) : List Beginning :=
  let five := Beginning.minimal (list.map (Beginning.cut 5))
  let four :=
    if five.length ≤ 10 then five else Beginning.minimal (five.map (Beginning.cut 4))
  if four.length ≤ 64 then four else Beginning.minimal (four.map (Beginning.cut 3))

/-- Whether to look for the beginnings as they are, all of them whole matches.  A
rare byte or several bytes that all begin with are looked for instead of several
texts, and so are shortened ones, if they do not become too short. -/
def areTexts (list : List Beginning) : Bool :=
  let needed := Beginning.minimal list
  let front := sharedFront (needed.map (·.bytes))
  if list.isEmpty || list.any (·.bytes.isEmpty) || needed.any (!·.isWhole) then
    false
  else if 1 < list.length && front.length ≤ 3 && front.head?.any isRareByte then
    needed.all (·.bytes.length = 1)
  else if 4 < front.length || (1 < front.length && 16 < needed.length) then
    needed.length = 1
  else if needed.length ≤ 10 then
    true
  else
    let shorter := shorten needed
    64 < shorter.length || shorter.any (·.bytes.length ≤ 2) || shorter.all (·.isWhole)

/-- Whether the pattern has no groups and asks nothing about positions. -/
def isPlain : Pattern → Bool
  | look _ | group _ _ => false
  | repeated inner _ _ _ => inner.isPlain
  | sequence first rest | either first rest => first.isPlain && rest.isPlain
  | empty | literal _ | oneOf _ => true

/-- Whether the pattern is looked for as a list of texts: what matches begin with,
or the branches of a long choice. -/
def isTextList (pattern : Pattern) : Bool :=
  pattern.isPlain &&
    ((match pattern.beginnings with
      | .anything => false
      | .among list => areTexts list)
      || pattern.texts?.any (3000 ≤ ·.length))

end SchemaDelta.Pattern
