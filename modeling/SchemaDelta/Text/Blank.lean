import SchemaDelta.Text.CharClass

/-!
# Blanks

Blanks are the characters with the Unicode property White_Space.  They separate
tokens and words, and are trimmed at the ends of a text.
-/

namespace SchemaDelta.Text

def blankRanges : CharRanges :=
  [(0x9, 0xd), (0x20, 0x20), (0x85, 0x85), (0xa0, 0xa0), (0x1680, 0x1680),
    (0x2000, 0x200a), (0x2028, 0x2029), (0x202f, 0x202f), (0x205f, 0x205f),
    (0x3000, 0x3000)]

def isBlank (c : Char) : Bool :=
  blankRanges.has c

def trimStart (cs : List Char) : List Char :=
  cs.dropWhile isBlank

def trimEnd (cs : List Char) : List Char :=
  (cs.reverse.dropWhile isBlank).reverse

def trim (cs : List Char) : List Char :=
  trimEnd (trimStart cs)

/-- The maximal runs of characters that are not blank, in order. -/
def words (cs : List Char) : List (List Char) :=
  go [] cs
where
  /-- `word` holds the characters of the current run, last one first. -/
  go (word : List Char) : List Char → List (List Char)
    | [] => if word.isEmpty then [] else [word.reverse]
    | c :: cs =>
        if isBlank c then
          if word.isEmpty then go [] cs else word.reverse :: go [] cs
        else
          go (c :: word) cs

end SchemaDelta.Text
