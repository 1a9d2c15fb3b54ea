import SchemaDelta.Text.Number

/-!
# JSON texts

A text by its grammar.  Strings keep their escapes and numbers their digits, so
that what nobody asks for need not denote anything.
-/

namespace SchemaDelta

/-- A number as it is written.  The fraction is empty when there is none. -/
structure Numeral where
  negative : Bool
  whole : List Char
  fraction : List Char
  exponent : Option Int
  deriving Repr, DecidableEq, Inhabited

namespace Numeral

/-- The digits of a numeral that has nothing else. -/
def digits? (numeral : Numeral) : Option (List Char) :=
  if !numeral.negative && numeral.fraction.isEmpty && numeral.exponent.isNone then
    some numeral.whole
  else
    none

/-- The greatest number of 64 bits. -/
def wordLimit : Nat := 18446744073709551615

/-- Appends digits to a number as long as it fits into 64 bits.  The digits that
do not fit are left. -/
def appendDigits : Nat → List Char → Nat × List Char
  | n, [] => (n, [])
  | n, digit :: digits =>
      let next := 10 * n + Text.digitValue digit
      if next ≤ wordLimit then appendDigits next digits else (n, digit :: digits)

/-- The number as one of 64 bits and a power of ten.  Digits that do not fit count
for their places only. -/
def scaled (numeral : Numeral) : Nat × Int :=
  let (n, long) := appendDigits 0 numeral.whole
  let (n, dropped) := appendDigits n numeral.fraction
  (n, long.length - (numeral.fraction.length - dropped.length : Nat) + numeral.exponent.getD 0)

/-- The nearest number of 53 significant bits; of two, the even one. -/
def roundToDouble (n : Nat) : Nat :=
  let unit := Nat.pow 2 (Nat.log2 n - 52)
  let quotient := n / unit
  let remainder := n % unit
  let up := unit < 2 * remainder || (2 * remainder = unit && quotient % 2 = 1)
  (if up then quotient + 1 else quotient) * unit

/-- The least number that is rounded to an infinite double. -/
def doubleBound : Nat := Nat.pow 2 1024 - Nat.pow 2 970

/-- Whether the number is finite when it is computed with doubles, as the product
of its digits and a power of ten. -/
def isFinite (numeral : Numeral) : Bool :=
  let (n, exponent) := numeral.scaled
  if n = 0 || exponent < 0 then true
  else if 308 < exponent then false
  else roundToDouble n * roundToDouble (Nat.pow 10 exponent.toNat) < doubleBound

end Numeral

inductive JsonSource
  | null
  | bool (value : Bool)
  | number (numeral : Numeral)
  | string (escaped : List Char)
  | array (items : List JsonSource)
  | object (fields : List (List Char × JsonSource))
  deriving Inhabited

namespace JsonSource

/-! ## Strings -/

def hexDigit? (c : Char) : Option Nat :=
  if '0' ≤ c ∧ c ≤ '9' then some (c.toNat - '0'.toNat)
  else if 'a' ≤ c ∧ c ≤ 'f' then some (c.toNat - 'a'.toNat + 10)
  else if 'A' ≤ c ∧ c ≤ 'F' then some (c.toNat - 'A'.toNat + 10)
  else none

def hexNumber? (digits : List Char) : Option Nat :=
  (digits.mapM hexDigit?).map (·.foldl (fun n digit => 16 * n + digit) 0)

/-- What a character stands for behind a backslash. -/
def escaped? (c : Char) : Option Char :=
  match c with
  | '\x22' | '\\' | '/' => some c
  | 'b' => some '\x08'
  | 'f' => some '\x0c'
  | 'n' => some '\n'
  | 'r' => some '\r'
  | 't' => some '\t'
  | _ => none

/-- The code points and surrogates that a string is written with. -/
def codePoints? : List Char → Option (List Nat)
  | [] => some []
  | '\\' :: 'u' :: a :: b :: c :: d :: cs =>
      match hexNumber? [a, b, c, d], codePoints? cs with
      | some n, some points => some (n :: points)
      | _, _ => none
  | '\\' :: c :: cs =>
      match escaped? c, codePoints? cs with
      | some c, some points => some (c.toNat :: points)
      | _, _ => none
  | c :: cs => (codePoints? cs).map (c.toNat :: ·)

def isHighSurrogate (n : Nat) : Bool :=
  0xD800 ≤ n && n < 0xDC00

def isLowSurrogate (n : Nat) : Bool :=
  0xDC00 ≤ n && n < 0xE000

/-- Joins pairs of surrogates; there is no text with a lone one. -/
def joinSurrogates? : List Nat → Option (List Char)
  | [] => some []
  | [n] =>
      if isHighSurrogate n || isLowSurrogate n then none else some [Char.ofNat n]
  | n :: m :: ns =>
      if isHighSurrogate n && isLowSurrogate m then
        (joinSurrogates? ns).map
          (Char.ofNat (0x10000 + 0x400 * (n - 0xD800) + (m - 0xDC00)) :: ·)
      else if isHighSurrogate n || isLowSurrogate n then
        none
      else
        (joinSurrogates? (m :: ns)).map (Char.ofNat n :: ·)

def unescape? (escaped : List Char) : Option String :=
  ((codePoints? escaped).bind joinSurrogates?).map String.ofList

def string? : JsonSource → Option String
  | string escaped => unescape? escaped
  | _ => none

/-! ## Values -/

mutual

/-- Whether the text denotes a value: its strings are texts, its numbers finite,
and it has at most `levels` arrays and objects inside each other. -/
def isSound (levels : Nat) : JsonSource → Bool
  | null | bool _ => true
  | number numeral => numeral.isFinite
  | string escaped => (unescape? escaped).isSome
  | array items => 0 < levels && itemsSound (levels - 1) items
  | object fields => 0 < levels && fieldsSound (levels - 1) fields

def itemsSound (levels : Nat) : List JsonSource → Bool
  | [] => true
  | item :: items => isSound levels item && itemsSound levels items

def fieldsSound (levels : Nat) : List (List Char × JsonSource) → Bool
  | [] => true
  | (name, value) :: fields =>
      (unescape? name).isSome && isSound levels value && fieldsSound levels fields

end

/-! ## Records -/

/-- The values of the named fields of a record.  A record is an object, where a
named field comes at most once and others do not matter, or an array of the
values, where the last ones may be left out. -/
def record? (names : List String) : JsonSource → Option (List (Option JsonSource))
  | array items =>
      if items.length ≤ names.length then
        some ((List.range names.length).map (items[·]?))
      else
        none
  | object fields => do
      let fields ← fields.mapM fun (name, value) => (unescape? name).map (·, value)
      names.mapM fun name =>
        match fields.filter (·.1 = name) with
        | [] => some none
        | [(_, value)] => some (some value)
        | _ => none
  | _ => none

/-- A record with the tag that says what it is a record of: a further field of an
object, or a further first item of an array. -/
def tagged? (name : String) : JsonSource → Option (String × JsonSource)
  | array (tag :: items) => tag.string?.map (·, array items)
  | object fields =>
      match record? [name] (object fields) with
      | some [some tag] => tag.string?.map (·, object fields)
      | _ => none
  | _ => none

end JsonSource

end SchemaDelta
