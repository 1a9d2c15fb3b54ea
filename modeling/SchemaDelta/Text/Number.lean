/-!
# Whole numbers in decimal

Readers for texts that consist of a number and nothing else, each with the
bounds of the numbers it admits.
-/

namespace SchemaDelta.Text

def digitValue (c : Char) : Nat :=
  c.toNat - '0'.toNat

def natOfDigits (digits : List Char) : Nat :=
  digits.foldl (fun n c => 10 * n + digitValue c) 0

/-- A run of one or more digits. -/
def nat? (cs : List Char) : Option Nat :=
  if cs.isEmpty || !cs.all Char.isDigit then none else some (natOfDigits cs)

/-- The numbers of a 16-bit word. -/
def word16? (cs : List Char) : Option Nat :=
  (nat? cs).filter (· ≤ 65535)

/-- The numbers of a 32-bit word, as lengths and precisions are. -/
def word32? (cs : List Char) : Option Nat :=
  (nat? cs).filter (· ≤ 4294967295)

/-- The signed numbers of 64 bits, with an optional sign in front. -/
def int64? (cs : List Char) : Option Int :=
  let value? : Option Int :=
    match cs with
    | '-' :: digits => (nat? digits).map fun n => -(n : Int)
    | '+' :: digits => (nat? digits).map fun n => (n : Int)
    | digits => (nat? digits).map fun n => (n : Int)
  value?.filter fun i => -9223372036854775808 ≤ i && i ≤ 9223372036854775807

end SchemaDelta.Text
