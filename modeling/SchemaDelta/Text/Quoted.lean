import SchemaDelta.Text.Printable

/-!
# Quoted texts in messages

A message shows a text between double quotes and a character between single
ones, so that blanks and invisible characters can be told apart.  The delimiter,
the backslash and everything without a visible form of its own are escaped.
-/

namespace SchemaDelta.Text

/-- The code point in lower-case hexadecimal digits, in braces. -/
def codePointEscape (c : Char) : String :=
  "\\u\x7b" ++ String.ofList (Nat.toDigits 16 c.toNat) ++ "\x7d"

def escapeFor (delimiter : Char) (c : Char) : String :=
  match c with
  | '\x00' => "\\0"
  | '\t' => "\\t"
  | '\r' => "\\r"
  | '\n' => "\\n"
  | '\\' => "\\\\"
  | _ =>
      if c = delimiter then "\\" ++ String.singleton c
      else if isCombining c || isHidden c then codePointEscape c
      else String.singleton c

def quoted (text : String) : String :=
  "\"" ++ String.join (text.toList.map (escapeFor '\x22')) ++ "\""

def quotedChar (c : Char) : String :=
  "\x27" ++ escapeFor '\x27' c ++ "\x27"

end SchemaDelta.Text
