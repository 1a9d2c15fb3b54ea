import SchemaDelta.Json.Source

/-!
# Reading JSON

Readers take a text and give what they read with the rest of the text.
-/

namespace SchemaDelta.JsonSource

def skipSpaces (cs : List Char) : List Char :=
  cs.dropWhile (· ∈ [' ', '\n', '\r', '\t'])

def digits? (cs : List Char) : Option (List Char × List Char) :=
  match cs.takeWhile Char.isDigit with
  | [] => none
  | digits => some (digits, cs.dropWhile Char.isDigit)

/-- The whole part of a number, which starts with a zero only if it is zero. -/
def whole? : List Char → Option (List Char × List Char)
  | '0' :: cs => some (['0'], cs)
  | cs => digits? cs

def fraction? : List Char → Option (List Char × List Char)
  | '.' :: cs => digits? cs
  | cs => some ([], cs)

def signedDigits? : List Char → Option (Int × List Char)
  | '-' :: cs => (digits? cs).map fun (digits, rest) => (-(Text.natOfDigits digits : Int), rest)
  | '+' :: cs => (digits? cs).map fun (digits, rest) => ((Text.natOfDigits digits : Int), rest)
  | cs => (digits? cs).map fun (digits, rest) => ((Text.natOfDigits digits : Int), rest)

def exponent? : List Char → Option (Option Int × List Char)
  | 'e' :: cs | 'E' :: cs => (signedDigits? cs).map fun (n, rest) => (some n, rest)
  | cs => some (none, cs)

def numeral? (cs : List Char) : Option (Numeral × List Char) := do
  let negative := cs.head? = some '-'
  let (whole, cs) ← whole? (if negative then cs.tail else cs)
  let (fraction, cs) ← fraction? cs
  let (exponent, cs) ← exponent? cs
  return (⟨negative, whole, fraction, exponent⟩, cs)

/-- A string behind its opening quote, with its escapes, through the closing
quote. -/
def stringBody? : List Char → Option (List Char × List Char)
  | [] => none
  | '\x22' :: cs => some ([], cs)
  | '\\' :: 'u' :: a :: b :: c :: d :: cs =>
      if (hexNumber? [a, b, c, d]).isSome then
        (stringBody? cs).map fun (body, rest) =>
          ('\\' :: 'u' :: a :: b :: c :: d :: body, rest)
      else
        none
  | '\\' :: c :: cs =>
      if (escaped? c).isSome then
        (stringBody? cs).map fun (body, rest) => ('\\' :: c :: body, rest)
      else
        none
  | c :: cs =>
      if c.toNat < 0x20 || c = '\\' then none
      else (stringBody? cs).map fun (body, rest) => (c :: body, rest)

mutual

def value? (fuel : Nat) (cs : List Char) : Option (JsonSource × List Char) :=
  match fuel with
  | 0 => none
  | fuel + 1 =>
      match skipSpaces cs with
      | 'n' :: 'u' :: 'l' :: 'l' :: rest => some (.null, rest)
      | 't' :: 'r' :: 'u' :: 'e' :: rest => some (.bool true, rest)
      | 'f' :: 'a' :: 'l' :: 's' :: 'e' :: rest => some (.bool false, rest)
      | '\x22' :: rest => (stringBody? rest).map fun (body, rest) => (.string body, rest)
      | '[' :: rest =>
          match skipSpaces rest with
          | ']' :: rest => some (.array [], rest)
          | rest => (items? fuel rest).map fun (items, rest) => (.array items, rest)
      | '\x7b' :: rest =>
          match skipSpaces rest with
          | '\x7d' :: rest => some (.object [], rest)
          | rest => (fields? fuel rest).map fun (fields, rest) => (.object fields, rest)
      | cs => (numeral? cs).map fun (numeral, rest) => (.number numeral, rest)

/-- One item of an array or more, through the closing bracket. -/
def items? (fuel : Nat) (cs : List Char) : Option (List JsonSource × List Char) :=
  match fuel with
  | 0 => none
  | fuel + 1 =>
      match value? fuel cs with
      | none => none
      | some (item, rest) =>
          match skipSpaces rest with
          | ']' :: rest => some ([item], rest)
          | ',' :: rest => (items? fuel rest).map fun (items, rest) => (item :: items, rest)
          | _ => none

/-- One field of an object or more, through the closing brace. -/
def fields? (fuel : Nat) (cs : List Char) :
    Option (List (List Char × JsonSource) × List Char) :=
  match fuel with
  | 0 => none
  | fuel + 1 =>
      match field? fuel cs with
      | none => none
      | some (field, rest) =>
          match skipSpaces rest with
          | '\x7d' :: rest => some ([field], rest)
          | ',' :: rest => (fields? fuel rest).map fun (fields, rest) => (field :: fields, rest)
          | _ => none

def field? (fuel : Nat) (cs : List Char) : Option ((List Char × JsonSource) × List Char) :=
  match fuel with
  | 0 => none
  | fuel + 1 =>
      match skipSpaces cs with
      | '\x22' :: rest =>
          match stringBody? rest with
          | none => none
          | some (name, rest) =>
              match skipSpaces rest with
              | ':' :: rest => (value? fuel rest).map fun (value, rest) => ((name, value), rest)
              | _ => none
      | _ => none

end

/-- Reads a text.  From one character taken to the next there are at most three
calls of readers. -/
def ofText? (text : String) : Option JsonSource :=
  let chars := text.toList
  match value? (3 * chars.length + 3) chars with
  | some (value, rest) => if (skipSpaces rest).isEmpty then some value else none
  | none => none

end SchemaDelta.JsonSource
