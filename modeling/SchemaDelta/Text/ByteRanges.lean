/-!
# Characters as byte sequences

A range of code points is a union of products of byte ranges in UTF-8.  Cutting
the range where the length of the encoding changes, at the surrogates, and where
a byte starts over leaves pieces that are one product each.
-/

namespace SchemaDelta.Text

/-- The first and the last byte. -/
abbrev ByteRange := Nat × Nat

/-- The bytes that encode a code point. -/
def utf8Bytes (point : Nat) : List Nat :=
  if point < 0x80 then [point]
  else if point < 0x800 then [0xc0 + point / 64, 0x80 + point % 64]
  else if point < 0x10000 then [0xe0 + point / 4096, 0x80 + point / 64 % 64, 0x80 + point % 64]
  else
    [0xf0 + point / 262144, 0x80 + point / 4096 % 64, 0x80 + point / 64 % 64, 0x80 + point % 64]

/-- Where a range of characters is cut: the last code point of the first part. -/
def cut? (first last : Nat) : Option Nat :=
  let behind (point : Nat) : Option Nat :=
    if first ≤ point && point < last then some point else none
  let aligned (block : Nat) : Option Nat :=
    if first / block = last / block then none
    else if first % block ≠ 0 then some (first / block * block + block - 1)
    else if last % block ≠ block - 1 then some (last / block * block - 1)
    else none
  behind 0x7f <|> behind 0x7ff <|> behind 0xffff
    <|> if last < 0x80 then none else aligned 64 <|> aligned 4096 <|> aligned 262144

/-- The products of byte ranges, in order, that make up a range of code points
without surrogates.  Every cut leaves two shorter ranges. -/
def byteSequencesWithin : (fuel first last : Nat) → List (List ByteRange)
  | 0, _, _ => []
  | fuel + 1, first, last =>
      match cut? first last with
      | some point =>
          byteSequencesWithin fuel first point ++ byteSequencesWithin fuel (point + 1) last
      | none => [(utf8Bytes first).zip (utf8Bytes last)]

def byteSequences (first last : Nat) : List (List ByteRange) :=
  byteSequencesWithin (last - first + 1) first last

end SchemaDelta.Text
