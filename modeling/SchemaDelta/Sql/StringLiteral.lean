import SchemaDelta.Text.Bytes

/-!
# String literals and quoted identifiers

Inside a string literal a single quote is doubled and a backslash escapes the
character behind it.  Inside a quoted identifier only the quote character itself
is doubled.  `closeString` and `closeQuoted` cut the body off a source that
stands behind the opening quote; `unescape` and `undouble` decode a body.
-/

namespace SchemaDelta.Sql

/-- The character that a backslash in front of `c` stands for. -/
def escapedChar (c : Char) : Char :=
  match c with
  | 'n' => '\n'
  | 't' => '\t'
  | 'r' => '\r'
  | '0' => '\x00'
  | 'b' => '\x08'
  | 'Z' => '\x1a'
  | c => c

def escapeString : List Char → List Char
  | [] => []
  | c :: cs =>
      if c = '\\' then '\\' :: '\\' :: escapeString cs
      else if c = '\x27' then '\x27' :: '\x27' :: escapeString cs
      else c :: escapeString cs

/-- The literal that reads back as `value`. -/
def stringLiteral (value : String) : String :=
  String.ofList ('\x27' :: escapeString value.toList ++ ['\x27'])

/-- Splits behind the closing quote: the body without it, and what follows. -/
def closeString : List Char → Option (List Char × List Char)
  | [] => none
  | '\\' :: [] => none
  | '\\' :: c :: cs =>
      (closeString cs).map fun (body, rest) => ('\\' :: c :: body, rest)
  | '\x27' :: '\x27' :: cs =>
      (closeString cs).map fun (body, rest) => ('\x27' :: '\x27' :: body, rest)
  | '\x27' :: cs => some ([], cs)
  | c :: cs => (closeString cs).map fun (body, rest) => (c :: body, rest)

def unescape : List Char → List Char
  | '\\' :: c :: cs => escapedChar c :: unescape cs
  | '\x27' :: '\x27' :: cs => '\x27' :: unescape cs
  | c :: cs => c :: unescape cs
  | [] => []

/-- Every `quote` written twice. -/
def double (quote : Char) : List Char → List Char
  | [] => []
  | c :: cs =>
      if c = quote then quote :: quote :: double quote cs
      else c :: double quote cs

/-- The name between quotes, ready to be read back. -/
def quoteName (quote : Char) (name : String) : String :=
  String.ofList (quote :: double quote name.toList ++ [quote])

/-- Splits behind the closing quote: the body without it, and what follows. -/
def closeQuoted (quote : Char) : List Char → Option (List Char × List Char)
  | [] => none
  | c :: d :: cs =>
      if c = quote then
        if d = quote then
          (closeQuoted quote cs).map fun (body, rest) => (c :: d :: body, rest)
        else
          some ([], d :: cs)
      else
        (closeQuoted quote (d :: cs)).map fun (body, rest) => (c :: body, rest)
  | [c] => if c = quote then some ([], []) else none

def undouble (quote : Char) : List Char → List Char
  | [] => []
  | c :: d :: cs =>
      if c = quote ∧ d = quote then quote :: undouble quote cs
      else c :: undouble quote (d :: cs)
  | [c] => [c]

theorem append_of_closeString {cs body rest : List Char}
    (h : closeString cs = some (body, rest)) :
    body ++ '\x27' :: rest = cs := by
  fun_induction closeString cs generalizing body with
  | case1 => simp at h
  | case2 => simp at h
  | case3 c cs ih =>
      obtain ⟨body', hclose, rfl⟩ := Text.exists_of_map_front h fun _ _ => rfl
      simp [ih hclose]
  | case4 cs ih =>
      obtain ⟨body', hclose, rfl⟩ := Text.exists_of_map_front h fun _ _ => rfl
      simp [ih hclose]
  | case5 cs => simp_all
  | case6 c cs _ _ _ _ ih =>
      obtain ⟨body', hclose, rfl⟩ := Text.exists_of_map_front h fun _ _ => rfl
      simp [ih hclose]

theorem append_of_closeQuoted {quote : Char} {cs body rest : List Char}
    (h : closeQuoted quote cs = some (body, rest)) :
    body ++ quote :: rest = cs := by
  fun_induction closeQuoted quote cs generalizing body with
  | case1 => simp at h
  | case2 cs ih =>
      obtain ⟨body', hclose, rfl⟩ := Text.exists_of_map_front h fun _ _ => rfl
      simp [ih hclose]
  | case3 d cs hd => simp_all
  | case4 c d cs hc ih =>
      obtain ⟨body', hclose, rfl⟩ := Text.exists_of_map_front h fun _ _ => rfl
      simp [ih hclose]
  | case5 => simp_all
  | case6 => simp at h

end SchemaDelta.Sql
