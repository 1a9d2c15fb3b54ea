import SchemaDelta.Proofs.Lexing.Piece

/-!
# Words in other letter case

An unquoted word stays one word when the case of its ASCII letters is changed.
Words that begin with a number are no exception: the marks of exponents and of
binary literals come in both cases.
-/

namespace SchemaDelta.Sql

/-! ## Changes of case -/

def lowerPoints : List Nat :=
  List.range' 97 26

/-- The function changes nothing but the case of ASCII letters. -/
def ChangesCase (f : Char → Char) : Prop :=
  ∀ c, f c = c ∨ ∃ n ∈ lowerPoints,
    (c = Char.ofNat n ∧ f c = (Char.ofNat n).toUpper)
      ∨ (c = (Char.ofNat n).toUpper ∧ f c = Char.ofNat n)

theorem changesCase_toUpper : ChangesCase Char.toUpper := by
  intro c
  by_cases hc : 97 ≤ c.toNat ∧ c.toNat ≤ 122
  · refine .inr ⟨c.toNat, ?_, .inl ?_⟩
    · rw [lowerPoints, List.mem_range'_1]
      omega
    · rw [Char.ofNat_toNat]
      exact ⟨rfl, rfl⟩
  · left
    unfold Char.toUpper
    rw [dif_neg]
    intro hbounds
    exact hc ⟨hbounds.1, hbounds.2⟩

theorem changesCase_toLower : ChangesCase Char.toLower := by
  intro c
  by_cases hc : 65 ≤ c.toNat ∧ c.toNat ≤ 90
  · refine .inr ⟨c.toNat + 32, ?_, .inr ?_⟩
    · rw [lowerPoints, List.mem_range'_1]
      omega
    · have hpoint : ∀ n ∈ List.range' 65 26,
          Char.ofNat n = (Char.ofNat (n + 32)).toUpper
            ∧ (Char.ofNat n).toLower = Char.ofNat (n + 32) := by decide
      have hc' := hpoint c.toNat (by rw [List.mem_range'_1]; omega)
      rwa [Char.ofNat_toNat] at hc'
  · left
    unfold Char.toLower
    rw [dif_neg]
    intro hbounds
    exact hc ⟨hbounds.1, hbounds.2⟩

namespace ChangesCase

variable {f : Char → Char}

/-- A class of characters that does not tell letters apart by case is respected. -/
theorem apply {p : Char → Bool} (hf : ChangesCase f)
    (h : ∀ n ∈ lowerPoints, p (Char.ofNat n).toUpper = p (Char.ofNat n)) (c : Char) :
    p (f c) = p c := by
  rcases hf c with hc | ⟨n, hn, ⟨rfl, hc⟩ | ⟨rfl, hc⟩⟩
  · rw [hc]
  · rw [hc, h n hn]
  · rw [hc, h n hn]

/-- A character that is no letter stays, and nothing else becomes it. -/
theorem eq_iff {d : Char} (hf : ChangesCase f)
    (h : ∀ n ∈ lowerPoints, ((Char.ofNat n).toUpper == d) = (Char.ofNat n == d)) (c : Char) :
    f c = d ↔ c = d := by
  have hbeq := hf.apply (p := (· == d)) h c
  rw [← beq_iff_eq, ← beq_iff_eq (a := c), hbeq]

theorem takeWhile_map {p : Char → Bool} (hp : ∀ c, p (f c) = p c) (cs : List Char) :
    (cs.map f).takeWhile p = (cs.takeWhile p).map f := by
  rw [List.takeWhile_map]
  congr 2
  exact funext hp

theorem dropWhile_map {p : Char → Bool} (hp : ∀ c, p (f c) = p c) (cs : List Char) :
    (cs.map f).dropWhile p = (cs.dropWhile p).map f := by
  rw [List.dropWhile_map]
  congr 2
  exact funext hp

theorem isDigit (hf : ChangesCase f) (c : Char) : (f c).isDigit = c.isDigit :=
  hf.apply (by decide) c

theorem isIdentifierChar (hf : ChangesCase f) (c : Char) :
    isIdentifierChar (f c) = isIdentifierChar c :=
  hf.apply (p := Sql.isIdentifierChar) (by decide) c

theorem isIdentifierStart (hf : ChangesCase f) (c : Char) :
    isIdentifierStart (f c) = isIdentifierStart c :=
  hf.apply (p := Sql.isIdentifierStart) (by decide) c

theorem isExponentMark (hf : ChangesCase f) (c : Char) :
    (f c = 'e' ∨ f c = 'E') ↔ (c = 'e' ∨ c = 'E') := by
  exact decide_eq_decide.mp (hf.apply (p := fun c => decide (c = 'e' ∨ c = 'E')) (by decide) c)

theorem isSign (hf : ChangesCase f) (c : Char) :
    (f c = '+' ∨ f c = '-') ↔ (c = '+' ∨ c = '-') := by
  exact decide_eq_decide.mp (hf.apply (p := fun c => decide (c = '+' ∨ c = '-')) (by decide) c)

theorem isBinaryMark (hf : ChangesCase f) (c : Char) :
    f c ∈ ['x', 'X', 'b', 'B'] ↔ c ∈ ['x', 'X', 'b', 'B'] := by
  have h := hf.apply (p := fun c => decide (c ∈ ['x', 'X', 'b', 'B'])) (by decide) c
  exact decide_eq_decide.mp h

theorem head?_map {p : Char → Bool} (hp : ∀ c, p (f c) = p c) (cs : List Char) :
    (cs.map f).head?.any p = cs.head?.any p := by
  cases cs with
  | nil => rfl
  | cons c cs => simpa using hp c

/-! ## Numbers and words -/

theorem scanFraction_map (hf : ChangesCase f) (cs : List Char) :
    scanFraction (cs.map f) = ((scanFraction cs).1.map f, (scanFraction cs).2.map f) := by
  have hpoint := hf.eq_iff (d := '.') (by decide)
  match cs with
  | [] => rfl
  | [c] => simp [scanFraction]
  | c :: d :: cs =>
      by_cases hc : c = '.'
      · subst hc
        have hdigit := hf.isDigit d
        simp only [List.map_cons, (hpoint '.').mpr rfl, scanFraction, hdigit]
        split
        next =>
          rw [← List.map_cons, takeWhile_map hf.isDigit, dropWhile_map hf.isDigit]
          simp [(hpoint '.').mpr rfl]
        next => simp [(hpoint '.').mpr rfl]
      · have hfc : f c ≠ '.' := fun h => hc ((hpoint c).mp h)
        simp [scanFraction, hc, hfc]

theorem scanExponentMark_map (hf : ChangesCase f) (cs : List Char) :
    scanExponentMark (cs.map f)
      = ((scanExponentMark cs).1.map f, (scanExponentMark cs).2.map f) := by
  match cs with
  | [] => rfl
  | [c] =>
      simp only [List.map_cons, List.map_nil, scanExponentMark, hf.isExponentMark]
      split <;> rfl
  | c :: d :: cs =>
      simp only [List.map_cons, scanExponentMark, hf.isExponentMark, hf.isSign]
      split
      next => split <;> rfl
      next => rfl

theorem scanExponent_map (hf : ChangesCase f) (cs : List Char) :
    scanExponent (cs.map f) = ((scanExponent cs).1.map f, (scanExponent cs).2.map f) := by
  simp only [scanExponent, hf.scanExponentMark_map, head?_map hf.isDigit, ne_eq,
    List.map_eq_nil_iff]
  split
  next => rw [takeWhile_map hf.isDigit, dropWhile_map hf.isDigit, List.map_append]
  next => rfl

theorem scanNumber_map (hf : ChangesCase f) (cs : List Char) :
    scanNumber (cs.map f) = ((scanNumber cs).1.map f, (scanNumber cs).2.map f) := by
  simp only [scanNumber, takeWhile_map hf.isDigit, dropWhile_map hf.isDigit, hf.scanFraction_map,
    hf.scanExponent_map, List.map_append]

theorem scanPlainBinary?_map (hf : ChangesCase f) {cs : List Char}
    (h : scanPlainBinary? cs = none) : scanPlainBinary? (cs.map f) = none := by
  have hzero := hf.eq_iff (d := '0') (by decide)
  have hhex := hf.apply (p := Text.isHexDigit) (by decide)
  match cs with
  | [] => rfl
  | [c] => simp [scanPlainBinary?]
  | [c, d] => simp [scanPlainBinary?]
  | c :: d :: e :: cs =>
      by_cases hc : c = '0'
      · subst hc
        simp only [scanPlainBinary?] at h
        simp only [List.map_cons, (hzero '0').mpr rfl, scanPlainBinary?, hf.isBinaryMark, hhex]
        split at h
        next => simp at h
        next hnot => rw [if_neg hnot]
      · have hfc : f c ≠ '0' := fun h => hc ((hzero c).mp h)
        simp [scanPlainBinary?, hfc]

end ChangesCase

/-! ## Words -/

/-- The kinds that a word without quotes can have. -/
def isWordKind : TokenKind → Bool
  | .identifier _ | .keyword _ => true
  | _ => false

theorem isWordKind_wordKind (word : List Char) : isWordKind (wordKind word) = true := by
  unfold wordKind
  split <;> rfl

theorem not_isWordKind_of_punctuation {c : Char} {kind : TokenKind}
    (h : punctuation? c = some kind) : isWordKind kind = false := by
  unfold punctuation? at h
  split at h
  all_goals try (simp only [Option.some.injEq] at h; subst h; rfl)
  split at h
  next =>
    simp only [Option.some.injEq] at h
    subst h
    rfl
  next => simp at h

theorem scanNumeric_word {cs text rest : List Char} {kind : TokenKind}
    (h : scanNumeric cs = .token kind text rest) (hkind : isWordKind kind = true) :
    kind = wordKind text ∧ ∃ number tail word, scanPlainBinary? cs = none
      ∧ scanNumber cs = (number, tail) ∧ tail.head?.any isIdentifierChar = true
      ∧ tail.takeWhile isIdentifierChar = word ∧ tail.dropWhile isIdentifierChar = rest
      ∧ text = number ++ word := by
  cases scanned_of_scanNumeric h with
  | binary _ => simp [isWordKind] at hkind
  | word hnone hnumber hhead hword hrest =>
      exact ⟨rfl, _, _, _, hnone, hnumber, hhead, hword, hrest, rfl⟩
  | number _ _ _ => simp [isWordKind] at hkind

theorem scanToken_word {c : Char} {cs text rest : List Char} {kind : TokenKind}
    (h : scanToken (c :: cs) = .token kind text rest) (hkind : isWordKind kind = true) :
    Unquoted c cs
      ∧ ((c.isDigit = true ∧ scanNumeric (c :: cs) = .token kind text rest)
        ∨ (c.isDigit = false ∧ isIdentifierStart c = true ∧ kind = wordKind text
          ∧ text = c :: cs.takeWhile isIdentifierChar
          ∧ rest = cs.dropWhile isIdentifierChar)) := by
  cases scanned_of_scanToken h with
  | string _ _ => simp [isWordKind] at hkind
  | quoted _ _ _ => simp [isWordKind] at hkind
  | binary _ _ _ => simp [isWordKind] at hkind
  | numeric hunquoted hdigit hnumeric => exact ⟨hunquoted, .inl ⟨hdigit, hnumeric⟩⟩
  | word hunquoted hdigit hstart htext hrest =>
      exact ⟨hunquoted, .inr ⟨hdigit, hstart, rfl, by rw [htext], hrest.symm⟩⟩
  | punctuation _ _ _ hpunctuation _ =>
      simp [not_isWordKind_of_punctuation hpunctuation] at hkind

/-! ## Literals without a value of their own -/

theorem wordKind_ne {kind : TokenKind} (hkind : isWordKind kind = false) (word : List Char) :
    wordKind word ≠ kind := by
  rintro rfl
  rw [isWordKind_wordKind] at hkind
  cases hkind

theorem eq_of_punctuation? {c : Char} {kind : TokenKind} (h : punctuation? c = some kind) :
    (kind = .leftParen → c = '(') ∧ (kind = .rightParen → c = ')') := by
  unfold punctuation? at h
  split at h
  all_goals try (obtain rfl := Option.some.inj h; simp)
  split at h
  next =>
    obtain rfl := Option.some.inj h
    simp
  next => cases h

def isParen : TokenKind → Bool
  | .leftParen | .rightParen => true
  | _ => false

theorem isParen_wordKind (word : List Char) : isParen (wordKind word) = false := by
  unfold wordKind
  split <;> rfl

theorem not_isParen_of_scanNumeric {cs text rest : List Char} {kind : TokenKind}
    (h : scanNumeric cs = .token kind text rest) : isParen kind = false := by
  cases scanned_of_scanNumeric h with
  | binary _ => rfl
  | word _ _ _ _ _ => exact isParen_wordKind _
  | number _ _ _ => rfl

theorem punctuation?_ne {c : Char} {kind : TokenKind} (h : punctuation? c = some kind)
    (text : String) : kind ≠ .number text ∧ kind ≠ .binary text ∧ kind ≠ .string text := by
  unfold punctuation? at h
  split at h
  all_goals try (simp only [Option.some.injEq] at h; subst h; simp)
  split at h
  next =>
    simp only [Option.some.injEq] at h
    subst h
    simp
  next => simp at h

theorem scanNumeric_number {cs text rest : List Char} {value : String}
    (h : scanNumeric cs = .token (.number value) text rest) : value = String.ofList text := by
  generalize hkind : TokenKind.number value = kind at h
  cases scanned_of_scanNumeric h with
  | binary _ => cases hkind
  | word _ _ _ _ _ => exact absurd hkind.symm (wordKind_ne rfl _)
  | number _ _ _ => exact TokenKind.number.inj hkind

theorem scanNumeric_binary {cs text rest : List Char} {value : String}
    (h : scanNumeric cs = .token (.binary value) text rest) : value = String.ofList text := by
  generalize hkind : TokenKind.binary value = kind at h
  cases scanned_of_scanNumeric h with
  | binary _ => exact TokenKind.binary.inj hkind
  | word _ _ _ _ _ => exact absurd hkind.symm (wordKind_ne rfl _)
  | number _ _ _ => cases hkind

/-- Numbers are kept as they are written, and begin with a digit. -/
theorem scanToken_number {c : Char} {cs text rest : List Char} {value : String}
    (h : scanToken (c :: cs) = .token (.number value) text rest) :
    value = String.ofList text ∧ c.isDigit = true := by
  generalize hkind : TokenKind.number value = kind at h
  cases scanned_of_scanToken h with
  | string _ _ => cases hkind
  | quoted _ _ _ => cases hkind
  | binary _ _ _ => cases hkind
  | numeric _ hdigit hnumeric =>
      subst hkind
      exact ⟨scanNumeric_number hnumeric, hdigit⟩
  | word _ _ _ _ _ => exact absurd hkind.symm (wordKind_ne rfl _)
  | punctuation _ _ _ hpunctuation _ =>
      exact absurd hkind.symm (punctuation?_ne hpunctuation value).1

theorem scanToken_binaryText {c : Char} {cs text rest : List Char} {value : String}
    (h : scanToken (c :: cs) = .token (.binary value) text rest) :
    value = String.ofList text := by
  generalize hkind : TokenKind.binary value = kind at h
  cases scanned_of_scanToken h with
  | string _ _ => cases hkind
  | quoted _ _ _ => cases hkind
  | binary _ _ _ => exact TokenKind.binary.inj hkind
  | numeric _ _ hnumeric =>
      subst hkind
      exact scanNumeric_binary hnumeric
  | word _ _ _ _ _ => exact absurd hkind.symm (wordKind_ne rfl _)
  | punctuation _ _ _ hpunctuation _ =>
      exact absurd hkind.symm (punctuation?_ne hpunctuation value).2.1

theorem Whole.number {text : List Char} {value : String} (h : Whole (.number value) text) :
    text = value.toList ∧ text.head?.any Char.isDigit = true := by
  unfold Whole at h
  cases text with
  | nil => simp [scanToken] at h
  | cons c text =>
      obtain ⟨rfl, hdigit⟩ := scanToken_number h
      exact ⟨String.toList_ofList.symm, by simpa using hdigit⟩

theorem Whole.binary {text : List Char} {value : String} (h : Whole (.binary value) text) :
    text = value.toList := by
  unfold Whole at h
  cases text with
  | nil => simp [scanToken] at h
  | cons c text =>
      obtain rfl := scanToken_binaryText h
      exact String.toList_ofList.symm

theorem scanNumeric_ne_string (cs text rest : List Char) (value : String) :
    scanNumeric cs ≠ .token (.string value) text rest := by
  intro h
  generalize hkind : TokenKind.string value = kind at h
  cases scanned_of_scanNumeric h with
  | binary _ => cases hkind
  | word _ _ _ _ _ => exact absurd hkind.symm (wordKind_ne rfl _)
  | number _ _ _ => cases hkind

theorem Whole.string {text : List Char} {value : String} (h : Whole (.string value) text) :
    ∃ body, text = '\x27' :: (body ++ ['\x27']) ∧ value = String.ofList (unescape body) := by
  unfold Whole at h
  cases text with
  | nil => simp [scanToken] at h
  | cons c text =>
      generalize hkind : TokenKind.string value = kind at h
      cases scanned_of_scanToken h with
      | @string body _ hc _ => exact ⟨body, by rw [hc], TokenKind.string.inj hkind⟩
      | quoted _ _ _ => cases hkind
      | binary _ _ _ => cases hkind
      | numeric _ _ hnumeric =>
          subst hkind
          exact absurd hnumeric (scanNumeric_ne_string _ _ _ value)
      | word _ _ _ _ _ => exact absurd hkind.symm (wordKind_ne rfl _)
      | punctuation _ _ _ hpunctuation _ =>
          exact absurd hkind.symm (punctuation?_ne hpunctuation value).2.2

/-- Parentheses are tokens of a single character. -/
theorem Whole.paren {kind : TokenKind} {text : List Char} (h : Whole kind text)
    (hkind : isParen kind = true) : ∃ c, punctuation? c = some kind ∧ text = [c] := by
  unfold Whole at h
  cases text with
  | nil => simp [scanToken] at h
  | cons c text =>
      cases scanned_of_scanToken h with
      | string _ _ => cases hkind
      | quoted _ _ _ => cases hkind
      | binary _ _ _ => cases hkind
      | numeric _ _ hnumeric => simp [not_isParen_of_scanNumeric hnumeric] at hkind
      | word _ _ _ _ _ => simp [isParen_wordKind] at hkind
      | punctuation _ _ _ hpunctuation _ => exact ⟨c, hpunctuation, rfl⟩

theorem Whole.leftParen {text : List Char} (h : Whole .leftParen text) : text = ['('] := by
  obtain ⟨c, hpunctuation, rfl⟩ := h.paren rfl
  rw [(eq_of_punctuation? hpunctuation).1 rfl]

/-- No other token begins with a parenthesis. -/
theorem Whole.eq_leftParen {kind : TokenKind} {text : List Char} (h : Whole kind text)
    (hopen : text.head? = some '(') : kind = .leftParen := by
  obtain ⟨rest, rfl⟩ := List.head?_eq_some_iff.mp hopen
  have hscan : scanToken ('(' :: rest) = .token .leftParen ['('] rest := by
    simp [scanToken, isNameQuote, isIdentifierStart, Text.isAlphabetic, punctuation?]
  exact (TokenScan.token.inj (h.symm.trans hscan)).1

theorem Whole.rightParen {text : List Char} (h : Whole .rightParen text) : text = [')'] := by
  obtain ⟨c, hpunctuation, rfl⟩ := h.paren rfl
  rw [(eq_of_punctuation? hpunctuation).2 rfl]

/-- The text is one unquoted word. -/
def IsWord (word : List Char) : Prop :=
  Whole (wordKind word) word

theorem isWord_of_whole {kind : TokenKind} {text : List Char} (h : Whole kind text)
    (hkind : isWordKind kind = true) : kind = wordKind text := by
  unfold Whole at h
  cases text with
  | nil => simp [scanToken] at h
  | cons c text =>
      obtain ⟨-, ⟨-, hnumeric⟩ | ⟨-, -, hword, -⟩⟩ := scanToken_word h hkind
      · exact (scanNumeric_word hnumeric hkind).1
      · exact hword

theorem Unquoted.map {f : Char → Char} {c : Char} {cs : List Char} (hf : ChangesCase f)
    (h : Unquoted c cs) : Unquoted (f c) (cs.map f) := by
  refine ⟨fun hc => h.string ((hf.eq_iff (by decide) c).mp hc),
    (hf.apply (p := isNameQuote) (by decide) c).trans h.name, fun hboth => ?_⟩
  refine h.binary ⟨(hf.isBinaryMark c).mp hboth.1, ?_⟩
  cases cs with
  | nil => simp at hboth
  | cons d cs =>
      have hd : f d = '\x27' := by simpa using hboth.2
      simpa using (hf.eq_iff (by decide) d).mp hd

/-- In other letters, a word that begins with a number is scanned as before. -/
theorem scanNumeric_map {f : Char → Char} {word : List Char} (hf : ChangesCase f)
    (h : scanNumeric word = .token (wordKind word) word []) :
    scanNumeric (word.map f) = .token (wordKind (word.map f)) (word.map f) [] := by
  obtain ⟨-, number, tail, rest, hnone, hnumber, hhead, hrest, hend, hword⟩ :=
    scanNumeric_word h (isWordKind_wordKind _)
  have hnumber' := hf.scanNumber_map word
  rw [hnumber] at hnumber'
  have hagain : ScannedNumeric (word.map f) (wordKind (number.map f ++ rest.map f))
      (number.map f ++ rest.map f) [] := by
    refine .word (hf.scanPlainBinary?_map hnone) hnumber' ?_ ?_ ?_
    · rwa [ChangesCase.head?_map hf.isIdentifierChar]
    · rw [ChangesCase.takeWhile_map hf.isIdentifierChar, hrest]
    · rw [ChangesCase.dropWhile_map hf.isIdentifierChar, hend, List.map_nil]
  rw [hword, List.map_append]
  rw [hword, List.map_append] at hagain
  exact hagain.scanNumeric

theorem IsWord.map {f : Char → Char} {word : List Char} (hf : ChangesCase f)
    (h : IsWord word) : IsWord (word.map f) := by
  unfold IsWord Whole at h ⊢
  cases word with
  | nil => simp [scanToken] at h
  | cons c cs =>
      obtain ⟨hunquoted, hcases⟩ := scanToken_word h (isWordKind_wordKind _)
      have hunquoted' := hunquoted.map hf
      refine Scanned.scanToken ?_
      rcases hcases with ⟨hdigit, hnumeric⟩ | ⟨hdigit, hstart, -, htext, hrest⟩
      · exact .numeric hunquoted' ((hf.isDigit c).trans hdigit) (scanNumeric_map hf hnumeric)
      · have hcs : cs.takeWhile isIdentifierChar = cs := (List.cons.inj htext).2.symm
        refine .word hunquoted' ((hf.isDigit c).trans hdigit)
          ((hf.isIdentifierStart c).trans hstart) ?_ ?_
        · rw [ChangesCase.takeWhile_map hf.isIdentifierChar, hcs]
        · rw [ChangesCase.dropWhile_map hf.isIdentifierChar, ← hrest, List.map_nil]

end SchemaDelta.Sql
