import SchemaDelta.Proofs.Script.Relexing

/-!
# Words and what follows them

What is written without quotes is a word: it consists of identifier characters and goes on up
to the first other character.  The scanner of numbers makes two exceptions.  In front of
identifier characters a number becomes a part of the identifier, its point and the sign of its
exponent included.  And the hexadecimal digits behind a prefix make a literal, even in the
middle of a word.  There are no other ones.
-/

namespace SchemaDelta.Sql

/-! ## Identifier characters -/

theorem isIdentifierChar_of_isHexDigit {c : Char} (h : Text.isHexDigit c = true) :
    isIdentifierChar c = true := by
  have hascii : ∀ n ∈ List.range 128, Text.isHexDigit (Char.ofNat n) = true →
      isIdentifierChar (Char.ofNat n) = true := by decide +kernel
  have hlt : c.toNat < 128 := by
    simp only [Text.isHexDigit, Char.isDigit, Bool.or_eq_true, Bool.and_eq_true,
      decide_eq_true_eq] at h
    rcases h with (⟨-, h⟩ | ⟨-, h⟩) | ⟨-, h⟩
    all_goals exact Nat.lt_of_le_of_lt (show c.toNat ≤ _ from h) (by decide)
  have hc := hascii c.toNat (List.mem_range.mpr hlt)
  rw [Char.ofNat_toNat] at hc
  exact hc h

theorem isIdentifierChar_of_isDigit {c : Char} (h : c.isDigit = true) :
    isIdentifierChar c = true :=
  isIdentifierChar_of_isHexDigit (by simp [Text.isHexDigit, h])

theorem isIdentifierChar_of_isIdentifierStart {c : Char} (h : isIdentifierStart c = true) :
    isIdentifierChar c = true := by
  simp only [isIdentifierStart, Bool.or_eq_true] at h
  simp only [isIdentifierChar, Text.isAlphanumeric, Bool.or_eq_true]
  tauto

/-! ## Numbers with other characters -/

/-- The text begins with a number that has a point, or a sign in its exponent. -/
inductive BeginsDecimal : List Char → Prop
  | point {digits : List Char} {d : Char} (hne : digits ≠ [])
      (hdigits : ∀ c ∈ digits, c.isDigit = true) (hd : d.isDigit = true) (rest : List Char) :
      BeginsDecimal (digits ++ '.' :: d :: rest)
  | sign {digits : List Char} {mark sign d : Char} (hne : digits ≠ [])
      (hdigits : ∀ c ∈ digits, c.isDigit = true) (hmark : mark = 'e' ∨ mark = 'E')
      (hsign : sign = '+' ∨ sign = '-') (hd : d.isDigit = true) (rest : List Char) :
      BeginsDecimal (digits ++ mark :: sign :: d :: rest)

namespace BeginsDecimal

variable {text : List Char}

theorem append (h : BeginsDecimal text) (back : List Char) : BeginsDecimal (text ++ back) := by
  cases h with
  | point hne hdigits hd rest =>
      rw [List.append_assoc]
      exact .point hne hdigits hd (rest ++ back)
  | sign hne hdigits hmark hsign hd rest =>
      rw [List.append_assoc]
      exact .sign hne hdigits hmark hsign hd (rest ++ back)

theorem exists_not_isIdentifierChar (h : BeginsDecimal text) :
    ∃ c ∈ text, isIdentifierChar c = false := by
  cases h with
  | point => exact ⟨'.', by simp, by decide⟩
  | @sign digits mark sign d _ _ _ hsign =>
      refine ⟨sign, by simp, ?_⟩
      rcases hsign with rfl | rfl <;> decide

end BeginsDecimal

theorem scanFraction_cases (cs : List Char) :
    (scanFraction cs).1 = [] ∨
      ∃ d ds, (scanFraction cs).1 = '.' :: d :: ds ∧ d.isDigit = true := by
  unfold scanFraction
  split
  next c rest =>
    split
    next hc => exact .inr ⟨c, rest.takeWhile Char.isDigit, by simp [hc], hc⟩
    next => exact .inl rfl
  next => exact .inl rfl

theorem scanExponentMark_cases (cs : List Char) :
    (scanExponentMark cs).1 = [] ∨
      ∃ mark, (mark = 'e' ∨ mark = 'E') ∧
        ((scanExponentMark cs).1 = [mark] ∨
          ∃ sign, (sign = '+' ∨ sign = '-') ∧ (scanExponentMark cs).1 = [mark, sign]) := by
  unfold scanExponentMark
  split
  next mark rest =>
    split
    next hmark =>
      split
      next sign rest' =>
        split
        next hsign => exact .inr ⟨mark, hmark, .inr ⟨sign, hsign, rfl⟩⟩
        next => exact .inr ⟨mark, hmark, .inl rfl⟩
      next => exact .inr ⟨mark, hmark, .inl rfl⟩
    next => exact .inl rfl
  next => exact .inl rfl

/-- Of an exponent, the sign alone is no identifier character. -/
theorem scanExponent_cases (cs : List Char) :
    (∀ c ∈ (scanExponent cs).1, isIdentifierChar c = true) ∨
      ∃ mark sign d ds, (scanExponent cs).1 = mark :: sign :: d :: ds ∧
        (mark = 'e' ∨ mark = 'E') ∧ (sign = '+' ∨ sign = '-') ∧ d.isDigit = true := by
  unfold scanExponent
  dsimp only
  split
  next hstarts =>
    obtain ⟨d, rest, hrest, hd⟩ : ∃ d rest, (scanExponentMark cs).2 = d :: rest ∧
        d.isDigit = true := by
      cases hrest : (scanExponentMark cs).2 with
      | nil => simp [hrest] at hstarts
      | cons d rest => exact ⟨d, rest, rfl, by simpa [hrest] using hstarts.2⟩
    have hdigits : ∀ c ∈ (d :: rest).takeWhile Char.isDigit, isIdentifierChar c = true :=
      fun c hc => isIdentifierChar_of_isDigit (List.all_eq_true.mp List.all_takeWhile c hc)
    rw [hrest]
    rcases scanExponentMark_cases cs with hnil | ⟨mark, hmark, hone | ⟨sign, hsign, htwo⟩⟩
    · exact absurd hnil hstarts.1
    · refine .inl fun c hc => ?_
      rw [hone] at hc
      rcases List.mem_cons.mp hc with rfl | hc
      · rcases hmark with rfl | rfl <;> decide
      · exact hdigits c hc
    · refine .inr ⟨mark, sign, d, rest.takeWhile Char.isDigit, ?_, hmark, hsign, hd⟩
      simp [htwo, hd]
  next => exact .inl (List.forall_mem_nil _)

theorem scanNumber_cases {c : Char} (hc : c.isDigit = true) (cs : List Char) :
    (∀ d ∈ (scanNumber (c :: cs)).1, isIdentifierChar d = true) ∨
      BeginsDecimal (scanNumber (c :: cs)).1 := by
  have hdigits : ∀ d ∈ (c :: cs).takeWhile Char.isDigit, d.isDigit = true :=
    List.all_eq_true.mp List.all_takeWhile
  have hne : (c :: cs).takeWhile Char.isDigit ≠ [] := by simp [hc]
  simp only [scanNumber]
  generalize (c :: cs).takeWhile Char.isDigit = digits at hdigits hne ⊢
  -- With a fraction the point is one of the other characters, whatever the exponent is.
  rcases scanFraction_cases ((c :: cs).dropWhile Char.isDigit) with hnone | ⟨d, ds, hsome, hd⟩
  · rw [hnone, List.append_nil]
    rcases scanExponent_cases (scanFraction ((c :: cs).dropWhile Char.isDigit)).2 with
      hplain | ⟨mark, sign, d, ds, hexponent, hmark, hsign, hd⟩
    · refine .inl fun e he => ?_
      rcases List.mem_append.mp he with he | he
      · exact isIdentifierChar_of_isDigit (hdigits e he)
      · exact hplain e he
    · rw [hexponent]
      exact .inr (.sign hne hdigits hmark hsign hd ds)
  · rw [hsome]
    exact .inr ((BeginsDecimal.point hne hdigits hd ds).append _)

/-! ## Words -/

section Scans

variable {c : Char} {cs text rest : List Char} {kind : TokenKind}

/-- The characters of a word are identifier characters, unless it begins with a number that
has others. -/
theorem scanToken_word_cases (h : scanToken cs = .token kind text rest)
    (hkind : isWordKind kind = true) :
    (∀ d ∈ text, isIdentifierChar d = true) ∨ BeginsDecimal text := by
  cases cs with
  | nil => cases h
  | cons c cs =>
      have hrun : ∀ cs : List Char, ∀ d ∈ cs.takeWhile isIdentifierChar,
          isIdentifierChar d = true := fun _ => List.all_eq_true.mp List.all_takeWhile
      obtain ⟨-, ⟨hdigit, hnumeric⟩ | ⟨-, hstart, -, rfl, -⟩⟩ := scanToken_word h hkind
      · obtain ⟨-, number, tail, word, -, hnumber, -, rfl, -, rfl⟩ :=
          scanNumeric_word hnumeric hkind
        have hcases := scanNumber_cases hdigit cs
        rw [hnumber] at hcases
        rcases hcases with hplain | hdecimal
        · exact .inl (List.forall_mem_append.mpr ⟨hplain, hrun tail⟩)
        · exact .inr (hdecimal.append _)
      · exact .inl (List.forall_mem_cons.mpr
          ⟨isIdentifierChar_of_isIdentifierStart hstart, hrun cs⟩)

/-- Hexadecimal and bit literals that begin with `0x` or `0b`, without quotes. -/
def TokenKind.isPrefixed : TokenKind → Bool
  | .binary text => text.toList.head? = some '0'
  | _ => false

/-- The kinds of what is written without quotes, punctuation apart. -/
def TokenKind.isBare : TokenKind → Bool
  | .identifier _ | .keyword _ | .number _ => true
  | kind => kind.isPrefixed

theorem isBare_of_isPrefixed (h : kind.isPrefixed = true) : kind.isBare = true := by
  cases kind with
  | binary text => exact h
  | _ => cases h

theorem isPrefixed_wordKind (word : List Char) : (wordKind word).isPrefixed = false := by
  unfold wordKind
  split <;> rfl

theorem not_isBare_of_punctuation (h : punctuation? c = some kind) : kind.isBare = false := by
  have hword := not_isWordKind_of_punctuation h
  have hliteral := punctuation?_ne h
  cases kind with
  | identifier _ | keyword _ => cases hword
  | number text => exact absurd rfl (hliteral text).1
  | binary text => exact absurd rfl (hliteral text).2.1
  | _ => rfl

theorem scanPlainBinary?_digits (h : scanPlainBinary? cs = some (text, rest)) :
    ∃ mark digits, mark ∈ ['x', 'X', 'b', 'B'] ∧ text = '0' :: mark :: digits ∧
      (∀ d ∈ digits, Text.isHexDigit d = true) ∧ rest.head?.any Text.isHexDigit = false := by
  unfold scanPlainBinary? at h
  split at h
  next mark d cs =>
    split at h
    next hmark =>
      obtain ⟨rfl, rfl⟩ := Prod.mk.inj (Option.some.inj h)
      exact ⟨mark, _, hmark.1, rfl, List.all_eq_true.mp List.all_takeWhile, head_of_dropWhile _⟩
    next => cases h
  next => cases h

/-- What is scanned without quotes is followed by no identifier character, unless it was read
behind a prefix. -/
theorem scanToken_bare_cases (h : scanToken cs = .token kind text rest)
    (hbare : kind.isBare = true) :
    (kind.isPrefixed = false ∧ rest.head?.any isIdentifierChar = false) ∨
      (kind.isPrefixed = true ∧ scanPlainBinary? cs = some (text, rest)) := by
  cases cs with
  | nil => cases h
  | cons c cs =>
      cases scanned_of_scanToken h with
      | string _ _ => cases hbare
      | quoted _ _ _ => cases hbare
      | binary hc _ _ =>
          have hzero : c = '0' := by
            simpa [TokenKind.isBare, TokenKind.isPrefixed] using hbare
          exact absurd (hzero ▸ hc) (by decide)
      | numeric _ _ hnumeric =>
          cases scanned_of_scanNumeric hnumeric with
          | binary hbinary =>
              obtain ⟨mark, digits, -, rfl, -⟩ := scanPlainBinary?_digits hbinary
              exact .inr ⟨by simp [TokenKind.isPrefixed], hbinary⟩
          | word _ _ _ _ hrest =>
              exact .inl ⟨isPrefixed_wordKind _, hrest ▸ head_of_dropWhile _⟩
          | number _ _ hhead => exact .inl ⟨rfl, hhead⟩
      | word _ _ _ _ hrest => exact .inl ⟨isPrefixed_wordKind _, hrest ▸ head_of_dropWhile _⟩
      | punctuation _ _ _ hpunctuation _ =>
          rw [not_isBare_of_punctuation hpunctuation] at hbare
          cases hbare

/-- The word in which a literal with a prefix stands goes on behind the literal exactly if it
has other characters than hexadecimal digits behind the prefix. -/
theorem exists_not_isHexDigit_iff (h : scanPlainBinary? (text ++ rest) = some (text, rest)) :
    (∃ d ∈ ((text ++ rest).takeWhile isIdentifierChar).drop 2, Text.isHexDigit d = false) ↔
      rest.head?.any isIdentifierChar = true := by
  obtain ⟨mark, digits, hmark, rfl, hdigits, hrest⟩ := scanPlainBinary?_digits h
  have hmarks : ∀ d ∈ ['x', 'X', 'b', 'B'], isIdentifierChar d = true :=
    List.all_iff_forall_prop.mp (by decide)
  have hall : ∀ d ∈ '0' :: mark :: digits, isIdentifierChar d = true := by
    simp only [List.forall_mem_cons]
    exact ⟨by decide, hmarks mark hmark,
      fun d hd => isIdentifierChar_of_isHexDigit (hdigits d hd)⟩
  rw [List.takeWhile_append_of_pos hall]
  constructor
  · rintro ⟨d, hd, hhex⟩
    rcases List.mem_append.mp hd with hd | hd
    · rw [hdigits d hd] at hhex
      cases hhex
    · refine Bool.of_not_eq_false fun hhead => ?_
      simp [takeWhile_of_head hhead] at hd
  · intro hhead
    cases rest with
    | nil => cases hhead
    | cons d rest =>
        have hd : isIdentifierChar d = true := by simpa using hhead
        exact ⟨d, by simp [hd], by simpa using hrest⟩

end Scans

/-! ## Tokens of a source -/

theorem Cursor.kind_ne_of_mem_tokens {cursor : Cursor} {token : Token}
    (h : token ∈ cursor.tokens) : token.kind ≠ .endOfInput := by
  obtain ⟨lexeme, -, hlexeme⟩ := List.mem_filterMap.mp h
  cases lexeme with
  | error error => cases hlexeme
  | ok other =>
      simp only [Lexeme.token?] at hlexeme
      split at hlexeme
      next => cases hlexeme
      next hkind => exact Option.some.inj hlexeme ▸ hkind

/-- A token that is found again where it starts is scanned there. -/
theorem Token.SelfContained.exists_scan {source : List Char} {token : Token}
    (h : token.SelfContained source) (hend : token.kind ≠ .endOfInput) :
    ∃ front text rest, source = front ++ (text ++ rest) ∧
      token.span = ⟨Text.byteLength front, Text.byteLength (front ++ text)⟩ ∧
      Whole token.kind text ∧ scanToken (text ++ rest) = .token token.kind text rest := by
  obtain ⟨front, covered, back, -, hsource, hspan⟩ := h.covers
  have hnext := h.again
  rw [hspan, hsource, List.append_assoc, Cursor.startingAt_byteLength] at hnext
  obtain ⟨text, rest, hrest, -, hstop, hwhole, hscan⟩ :=
    Cursor.exists_scan_of_next hnext hend (congrArg Span.start hspan)
  refine ⟨front, text, rest, ?_, ?_, hwhole, hscan⟩
  · rw [hsource, List.append_assoc]
    exact congrArg _ hrest
  · rw [Text.byteLength_append, ← hstop, hspan]

namespace Token

/-- If the token is an identifier, it consists of identifier characters. -/
def Spelled (token : Token) : Prop :=
  ∀ name, token.kind = .identifier name → ∀ c ∈ name.toList, isIdentifierChar c = true

/-- The token is an identifier that begins with a number with a point or an exponent sign. -/
def IsDecimalName (token : Token) : Prop :=
  ∃ name, token.kind = .identifier name ∧ BeginsDecimal name.toList

/-- The character of the source right behind the token. -/
def follower? (source : List Char) (token : Token) : Option Char :=
  (Text.dropBytes? token.span.stop source).bind List.head?

/-- If the token is written without quotes, no identifier character follows it. -/
def Maximal (source : List Char) (token : Token) : Prop :=
  token.kind.isBare = true → (token.follower? source).any isIdentifierChar = false

/-- The identifier characters of the source from the start of the token on. -/
def word (source : List Char) (token : Token) : List Char :=
  ((Text.dropBytes? token.span.start source).getD []).takeWhile isIdentifierChar

/-- The token is a literal with a prefix, and not all that stands behind the prefix up to the
end of the word are hexadecimal digits. -/
def CutsWord (source : List Char) (token : Token) : Prop :=
  token.kind.isPrefixed = true ∧ ∃ c ∈ (token.word source).drop 2, Text.isHexDigit c = false

instance (source : List Char) (token : Token) : Decidable (token.Maximal source) :=
  inferInstanceAs (Decidable (_ → _))

variable {source front text rest : List Char} {token : Token}

theorem spelled_iff (hwhole : Whole token.kind text)
    (hscan : scanToken (text ++ rest) = .token token.kind text rest) :
    token.Spelled ↔ ¬token.IsDecimalName := by
  constructor
  · rintro hspelled ⟨name, hname, hdecimal⟩
    obtain ⟨c, hc, hnot⟩ := hdecimal.exists_not_isIdentifierChar
    rw [hspelled name hname c hc] at hnot
    cases hnot
  · intro hnot name hname
    rw [hname] at hscan hwhole
    obtain rfl := hwhole.identifier
    rcases scanToken_word_cases hscan rfl with hplain | hdecimal
    · exact hplain
    · exact absurd ⟨name, hname, hdecimal⟩ hnot

theorem follower?_eq (hsource : source = front ++ (text ++ rest))
    (hspan : token.span = ⟨Text.byteLength front, Text.byteLength (front ++ text)⟩) :
    token.follower? source = rest.head? := by
  rw [follower?, hsource, hspan, ← List.append_assoc, Text.dropBytes?_byteLength]
  rfl

theorem word_eq (hsource : source = front ++ (text ++ rest))
    (hspan : token.span = ⟨Text.byteLength front, Text.byteLength (front ++ text)⟩) :
    token.word source = (text ++ rest).takeWhile isIdentifierChar := by
  rw [word, hsource, hspan, Text.dropBytes?_byteLength]
  rfl

theorem maximal_iff (hsource : source = front ++ (text ++ rest))
    (hspan : token.span = ⟨Text.byteLength front, Text.byteLength (front ++ text)⟩)
    (hscan : scanToken (text ++ rest) = .token token.kind text rest) :
    token.Maximal source ↔ ¬token.CutsWord source := by
  rw [Maximal, CutsWord, follower?_eq hsource hspan, word_eq hsource hspan]
  cases hbare : token.kind.isBare with
  | false =>
      have hnot : ¬token.kind.isPrefixed = true := fun h => by
        rw [isBare_of_isPrefixed h] at hbare
        cases hbare
      simp [hnot]
  | true =>
      rcases scanToken_bare_cases hscan hbare with ⟨hprefixed, hhead⟩ | ⟨hprefixed, hbinary⟩
      · simp [hprefixed, hhead]
      · rw [exists_not_isHexDigit_iff hbinary]
        simp [hprefixed]

end Token

/-- In every source, an identifier consists of identifier characters unless it begins with a
number of other characters, and what is written without quotes is followed by no identifier
character unless it is a literal with a prefix, in a word that has more characters than
hexadecimal digits behind the prefix. -/
theorem words_wellFormed_iff (source : List Char) {token : Token}
    (h : token ∈ (Cursor.atStart source).tokens) :
    (token.Spelled ↔ ¬token.IsDecimalName) ∧ (token.Maximal source ↔ ¬token.CutsWord source) := by
  have hoffset : (Cursor.atStart source).offset = Text.byteLength [] := rfl
  have hself : token.SelfContained source := Cursor.selfContained hoffset token h
  obtain ⟨front, text, rest, hsource, hspan, hwhole, hscan⟩ :=
    hself.exists_scan (Cursor.kind_ne_of_mem_tokens h)
  exact ⟨Token.spelled_iff hwhole hscan, Token.maximal_iff hsource hspan hscan⟩

/-- A letter of two bytes that is no hexadecimal digit follows the literal. -/
theorem words_wellFormed_iff_accent :
    ⟨.binary "0x1", ⟨3, 6⟩, "0x1"⟩ ∈ (Cursor.atStart "é 0x1é".toList).tokens ∧
      Token.Spelled ⟨.binary "0x1", ⟨3, 6⟩, "0x1"⟩ ∧
      ¬Token.Maximal "é 0x1é".toList ⟨.binary "0x1", ⟨3, 6⟩, "0x1"⟩ := by
  have hmem : ⟨.binary "0x1", ⟨3, 6⟩, "0x1"⟩ ∈ (Cursor.atStart "é 0x1é".toList).tokens := by
    decide +kernel
  obtain ⟨hspelled, hmaximal⟩ := words_wellFormed_iff "é 0x1é".toList hmem
  have hname : ¬Token.IsDecimalName ⟨.binary "0x1", ⟨3, 6⟩, "0x1"⟩ := by
    rintro ⟨name, hname, -⟩
    cases hname
  have hcuts : Token.CutsWord "é 0x1é".toList ⟨.binary "0x1", ⟨3, 6⟩, "0x1"⟩ :=
    ⟨rfl, 'é', by decide +kernel, by decide⟩
  exact ⟨hmem, hspelled.mpr hname, fun h => hmaximal.mp h hcuts⟩

/-- Two words that break: a name that begins like a bit literal is cut behind its hexadecimal
digits, and a number with a point is joined to the letters behind it. -/
theorem words_cut_and_joined :
    (Cursor.atStart "0bad_name".toList).tokens
        = [⟨.binary "0bad", ⟨0, 4⟩, "0bad"⟩, ⟨.identifier "_name", ⟨4, 9⟩, "_name"⟩] ∧
      ¬Token.Maximal "0bad_name".toList ⟨.binary "0bad", ⟨0, 4⟩, "0bad"⟩ ∧
      (Cursor.atStart "1.5kg".toList).tokens = [⟨.identifier "1.5kg", ⟨0, 5⟩, "1.5kg"⟩] ∧
      ¬Token.Spelled ⟨.identifier "1.5kg", ⟨0, 5⟩, "1.5kg"⟩ := by
  refine ⟨by decide +kernel, by decide +kernel, by decide +kernel, fun h => ?_⟩
  have hpoint := h "1.5kg" rfl '.' (by decide)
  exact absurd hpoint (by decide)

end SchemaDelta.Sql
