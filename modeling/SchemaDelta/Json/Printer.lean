import SchemaDelta.Json.Value

/-!
# Printing JSON

Values are laid out over several lines with two spaces for each level; empty
arrays and objects take no lines of their own.
-/

namespace SchemaDelta.JsonValue

/-- Two lower-case hexadecimal digits. -/
def hexPair (n : Nat) : String :=
  let digits := Nat.toDigits 16 n
  String.ofList (List.replicate (2 - digits.length) '0' ++ digits)

/-- Quotes, backslashes and control characters are escaped, and nothing else. -/
def escapeChar (c : Char) : String :=
  match c with
  | '\x22' => "\\\""
  | '\\' => "\\\\"
  | '\x08' => "\\b"
  | '\x0c' => "\\f"
  | '\n' => "\\n"
  | '\r' => "\\r"
  | '\t' => "\\t"
  | c => if c.toNat < 0x20 then "\\u00" ++ hexPair c.toNat else String.singleton c

def printString (text : String) : String :=
  "\"" ++ String.join (text.toList.map escapeChar) ++ "\""

def indent (depth : Nat) : String :=
  String.ofList (List.replicate (2 * depth) ' ')

/-- The lines of an array or an object between its brackets. -/
def printBlock (depth : Nat) (opening closing : String) (lines : List String) : String :=
  if lines.isEmpty then
    opening ++ closing
  else
    opening ++ "\n" ++ ",\n".intercalate (lines.map (indent (depth + 1) ++ ·)) ++ "\n"
      ++ indent depth ++ closing

mutual

def print (depth : Nat) : JsonValue → String
  | .null => "null"
  | .bool value => if value then "true" else "false"
  | .number text => text
  | .string value => printString value
  | .array items => printBlock depth "[" "]" (printItems (depth + 1) items)
  | .object fields => printBlock depth "\x7b" "\x7d" (printFields (depth + 1) fields)

def printItems (depth : Nat) : List JsonValue → List String
  | [] => []
  | item :: items => print depth item :: printItems depth items

def printFields (depth : Nat) : List (String × JsonValue) → List String
  | [] => []
  | (name, value) :: fields =>
      (printString name ++ ": " ++ print depth value) :: printFields depth fields

end

def pretty (value : JsonValue) : String :=
  print 0 value

end SchemaDelta.JsonValue
