import SchemaDelta.Sql.StringLiteral
import SchemaDelta.Sql.Token
import SchemaDelta.Text.Alphanumeric

/-!
# Scanning one token

`scanToken` decides what stands at the start of a text.  Each scanner cuts its
part off the front, so that the text it took and the text it left make up what
it was given.
-/

namespace SchemaDelta.Sql

/-! ## Words and numbers -/

def isIdentifierStart (c : Char) : Bool :=
  Text.isAlphabetic c || c = '_' || c = '$'

def isIdentifierChar (c : Char) : Bool :=
  Text.isAlphanumeric c || c = '_' || c = '$'

/-- The token that an unquoted word makes. -/
def wordKind (word : List Char) : TokenKind :=
  match Keyword.ofWord? (String.ofList word) with
  | some keyword => .keyword keyword
  | none => .identifier (String.ofList word)

/-- The fraction in front: a point and its digits, or nothing. -/
def scanFraction (cs : List Char) : List Char × List Char :=
  match cs with
  | '.' :: c :: rest =>
      if c.isDigit then
        ('.' :: (c :: rest).takeWhile Char.isDigit, (c :: rest).dropWhile Char.isDigit)
      else
        ([], cs)
  | _ => ([], cs)

/-- The mark of an exponent, a sign if there is one, and what follows. -/
def scanExponentMark (cs : List Char) : List Char × List Char :=
  match cs with
  | mark :: rest =>
      if mark = 'e' ∨ mark = 'E' then
        match rest with
        | sign :: rest' =>
            if sign = '+' ∨ sign = '-' then ([mark, sign], rest') else ([mark], rest)
        | [] => ([mark], rest)
      else
        ([], cs)
  | [] => ([], cs)

/-- The exponent in front: its mark, sign and digits, or nothing. -/
def scanExponent (cs : List Char) : List Char × List Char :=
  let (mark, rest) := scanExponentMark cs
  if mark ≠ [] ∧ rest.head?.any Char.isDigit then
    (mark ++ rest.takeWhile Char.isDigit, rest.dropWhile Char.isDigit)
  else
    ([], cs)

/-- The number in front: digits, a fraction and an exponent. -/
def scanNumber (cs : List Char) : List Char × List Char :=
  let (fraction, afterFraction) := scanFraction (cs.dropWhile Char.isDigit)
  let (exponent, rest) := scanExponent afterFraction
  (cs.takeWhile Char.isDigit ++ fraction ++ exponent, rest)

theorem append_scanFraction (cs : List Char) :
    (scanFraction cs).1 ++ (scanFraction cs).2 = cs := by
  unfold scanFraction
  split
  next c rest =>
    split
    next =>
      simp only [List.cons_append, List.takeWhile_append_dropWhile]
    next => rfl
  next => rfl

theorem append_scanExponentMark (cs : List Char) :
    (scanExponentMark cs).1 ++ (scanExponentMark cs).2 = cs := by
  unfold scanExponentMark
  repeat' split
  all_goals rfl

theorem append_scanExponent (cs : List Char) :
    (scanExponent cs).1 ++ (scanExponent cs).2 = cs := by
  unfold scanExponent
  dsimp only
  split
  next =>
    simp only [List.append_assoc, List.takeWhile_append_dropWhile]
    exact append_scanExponentMark cs
  next => rfl

theorem append_scanNumber (cs : List Char) :
    (scanNumber cs).1 ++ (scanNumber cs).2 = cs := by
  simp only [scanNumber, List.append_assoc, append_scanExponent,
    append_scanFraction, List.takeWhile_append_dropWhile]

/-! ## Tokens -/

/-- What stands at the start of a text that no gap precedes. -/
inductive TokenScan
  | token (kind : TokenKind) (text rest : List Char)
  | endOfInput
  | unclosedString
  | unclosedIdentifier
  | invalid (char : Char) (rest : List Char)

/-- Hexadecimal and bit literals without quotes: `0x` or `0b` and digits. -/
def scanPlainBinary? : List Char → Option (List Char × List Char)
  | '0' :: mark :: c :: cs =>
      if mark ∈ ['x', 'X', 'b', 'B'] ∧ Text.isHexDigit c then
        some ('0' :: mark :: (c :: cs).takeWhile Text.isHexDigit,
          (c :: cs).dropWhile Text.isHexDigit)
      else
        none
  | _ => none

/-- A number, or the word that begins with one when identifier characters
follow it directly. -/
def scanNumeric (cs : List Char) : TokenScan :=
  match scanPlainBinary? cs with
  | some (text, rest) => .token (.binary (String.ofList text)) text rest
  | none =>
      let (number, rest) := scanNumber cs
      if rest.head?.any isIdentifierChar then
        let word := number ++ rest.takeWhile isIdentifierChar
        .token (wordKind word) word (rest.dropWhile isIdentifierChar)
      else
        .token (.number (String.ofList number)) number rest

/-- The token that a single character makes. -/
def punctuation? (c : Char) : Option TokenKind :=
  match c with
  | '(' => some .leftParen
  | ')' => some .rightParen
  | ',' => some .comma
  | ';' => some .semicolon
  | '.' => some .dot
  | '=' => some .equals
  | c => if c ∈ "+-*/%<>!|&~^:?@".toList then some (.symbol c) else none

/-- The quote characters of identifiers: the double quote and the backtick. -/
def isNameQuote (c : Char) : Bool :=
  c = '\x22' || c = '\x60'

def scanToken : List Char → TokenScan
  | [] => .endOfInput
  | c :: cs =>
      if c = '\x27' then
        match closeString cs with
        | some (body, rest) =>
            .token (.string (String.ofList (unescape body))) ('\x27' :: body ++ ['\x27']) rest
        | none => .unclosedString
      else if isNameQuote c then
        match closeQuoted c cs with
        | some (body, rest) =>
            .token (.quoted (String.ofList (undouble c body))) (c :: body ++ [c]) rest
        | none => .unclosedIdentifier
      else if c ∈ ['x', 'X', 'b', 'B'] ∧ cs.head? = some '\x27' then
        let body := cs.tail.takeWhile (· ≠ '\x27')
        match cs.tail.dropWhile (· ≠ '\x27') with
        | quote :: rest =>
            let text := c :: '\x27' :: body ++ [quote]
            .token (.binary (String.ofList text)) text rest
        | [] => .unclosedString
      else if c.isDigit then
        scanNumeric (c :: cs)
      else if isIdentifierStart c then
        let word := c :: cs.takeWhile isIdentifierChar
        .token (wordKind word) word (cs.dropWhile isIdentifierChar)
      else
        match punctuation? c with
        | some kind => .token kind [c] cs
        | none => .invalid c cs

theorem scanPlainBinary?_append {cs text rest : List Char}
    (h : scanPlainBinary? cs = some (text, rest)) : text ++ rest = cs ∧ text ≠ [] := by
  unfold scanPlainBinary? at h
  split at h
  next mark c cs' =>
    split at h
    next =>
      simp only [Option.some.injEq, Prod.mk.injEq] at h
      obtain ⟨rfl, rfl⟩ := h
      simp only [List.cons_append, List.takeWhile_append_dropWhile]
      simp
    next => simp at h
  next => simp at h

theorem scanNumeric_append {c : Char} {cs text rest : List Char} {kind : TokenKind}
    (hc : c.isDigit = true) (h : scanNumeric (c :: cs) = .token kind text rest) :
    text ++ rest = c :: cs ∧ text ≠ [] := by
  have hne : (scanNumber (c :: cs)).1 ≠ [] := by
    simp [scanNumber, hc]
  have happend := append_scanNumber (c :: cs)
  unfold scanNumeric at h
  split at h
  next text' rest' hbinary =>
    simp only [TokenScan.token.injEq] at h
    obtain ⟨_, rfl, rfl⟩ := h
    exact scanPlainBinary?_append hbinary
  next =>
    dsimp only at h
    split at h
    next =>
      simp only [TokenScan.token.injEq] at h
      obtain ⟨_, rfl, rfl⟩ := h
      rw [List.append_assoc, List.takeWhile_append_dropWhile]
      exact ⟨happend, by simp [hne]⟩
    next =>
      simp only [TokenScan.token.injEq] at h
      obtain ⟨_, rfl, rfl⟩ := h
      exact ⟨happend, hne⟩

/-- A token takes a part of the text that is not empty and leaves the rest. -/
theorem append_of_scanToken {cs text rest : List Char} {kind : TokenKind}
    (h : scanToken cs = .token kind text rest) : text ++ rest = cs ∧ text ≠ [] := by
  cases cs with
  | nil => simp [scanToken] at h
  | cons c cs =>
      simp only [scanToken] at h
      split at h
      next hc =>
        split at h
        next body rest' hclose =>
          simp only [TokenScan.token.injEq] at h
          obtain ⟨_, rfl, rfl⟩ := h
          have := append_of_closeString hclose
          subst hc
          simpa using this
        next => simp at h
      next =>
        split at h
        next =>
          split at h
          next body rest' hclose =>
            simp only [TokenScan.token.injEq] at h
            obtain ⟨_, rfl, rfl⟩ := h
            have := append_of_closeQuoted hclose
            simpa using this
          next => simp at h
        next =>
          split at h
          next hmark =>
            split at h
            next quote rest' hdrop =>
              simp only [TokenScan.token.injEq] at h
              obtain ⟨_, rfl, rfl⟩ := h
              cases cs with
              | nil => simp at hmark
              | cons d cs =>
                  have hd : d = '\x27' := by simpa using hmark.2
                  subst hd
                  have hsplit := List.takeWhile_append_dropWhile
                    (p := fun x : Char => decide (x ≠ '\x27')) (l := cs)
                  rw [List.tail_cons] at hdrop
                  rw [hdrop] at hsplit
                  simpa using hsplit
            next => simp at h
          next =>
            split at h
            next hdigit => exact scanNumeric_append hdigit h
            next =>
              split at h
              next =>
                simp only [TokenScan.token.injEq] at h
                obtain ⟨_, rfl, rfl⟩ := h
                simp [List.takeWhile_append_dropWhile]
              next =>
                split at h
                next =>
                  simp only [TokenScan.token.injEq] at h
                  obtain ⟨_, rfl, rfl⟩ := h
                  simp
                next => simp at h

theorem scanToken_eq_endOfInput {cs : List Char} (h : scanToken cs = .endOfInput) :
    cs = [] := by
  cases cs with
  | nil => rfl
  | cons c cs =>
      simp only [scanToken, scanNumeric] at h
      repeat' split at h
      all_goals simp at h

theorem scanToken_eq_invalid {cs rest : List Char} {c : Char}
    (h : scanToken cs = .invalid c rest) : cs = c :: rest := by
  cases cs with
  | nil => simp [scanToken] at h
  | cons c cs =>
      simp only [scanToken, scanNumeric] at h
      repeat' split at h
      all_goals simp_all

end SchemaDelta.Sql
