import SchemaDelta.Proofs.Lexing.Segments

/-!
# Legible pieces

Pieces that consist of blanks and one whole token are legible when each of them is
delimited from the next one.  Parentheses and commas delimit themselves.
-/

namespace SchemaDelta.Sql

variable {kind : TokenKind} {gap text rest : List Char}

/-! ## Blanks -/

def blankPoints : List Nat :=
  Text.blankRanges.flatMap fun range => List.range' range.1 (range.2 - range.1 + 1)

theorem of_isBlank {p : Char → Bool} (h : ∀ n ∈ blankPoints, p (Char.ofNat n) = true) {c : Char}
    (hc : Text.isBlank c = true) : p c = true := by
  have hmem : c.toNat ∈ blankPoints := by
    obtain ⟨range, hrange, hbounds⟩ := List.any_eq_true.mp hc
    simp only [Bool.and_eq_true, decide_eq_true_eq] at hbounds
    refine List.mem_flatMap.mpr ⟨range, hrange, ?_⟩
    rw [List.mem_range'_1]
    omega
  have hpoint := h c.toNat hmem
  rwa [Char.ofNat_toNat] at hpoint

def startsToken (c : Char) : Bool :=
  c = '\x27' || isNameQuote c || c.isDigit || isIdentifierStart c || (punctuation? c).isSome

theorem startsToken_of_scanToken {c : Char} {cs : List Char}
    (h : scanToken (c :: cs) = .token kind text rest) : startsToken c = true := by
  cases scanned_of_scanToken h with
  | string hc _ => simp [startsToken, hc]
  | quoted _ hc _ => simp [startsToken, hc]
  | binary hc _ _ =>
      have hstart : ∀ d ∈ ['x', 'X', 'b', 'B'], startsToken d = true :=
        List.all_iff_forall_prop.mp (by decide)
      exact hstart c hc
  | numeric _ hdigit _ => simp [startsToken, hdigit]
  | word _ _ hstart _ _ => simp [startsToken, hstart]
  | punctuation _ _ _ hpunctuation _ => simp [startsToken, hpunctuation]

theorem isAlphabetic_of_isBlank {c : Char} (h : Text.isBlank c = true) :
    Text.isAlphabetic c = false := by
  -- The blanks lie in so few of the gaps between letters that letters are not looked up.
  have hgaps := of_isBlank (p := fun c => c.toNat ≤ 0xa0 || c.toNat = 0x1680
    || (0x2000 ≤ c.toNat && c.toNat ≤ 0x205f) || c.toNat = 0x3000) (by decide) h
  have hapart : ∀ range ∈ Text.alphabeticRanges, 0xa0 < range.1 ∧
      (range.2 < 0x1680 ∨ 0x1680 < range.1 ∧ range.2 < 0x2000
        ∨ 0x205f < range.1 ∧ range.2 < 0x3000 ∨ 0x3000 < range.1) := by
    decide +kernel
  unfold Text.isAlphabetic
  split
  next => simpa using of_isBlank (p := fun c => !c.isAlpha) (by decide) h
  next =>
    refine Bool.eq_false_iff.mpr fun hhas => ?_
    obtain ⟨range, hrange, hbounds⟩ := List.any_eq_true.mp hhas
    have hout := hapart range hrange
    simp only [Bool.and_eq_true, Bool.or_eq_true, decide_eq_true_eq] at hbounds hgaps
    omega

/-- The characters other than letters that tokens begin with or that names hold. -/
def isMark (c : Char) : Bool :=
  Text.isNumeric c || c.isDigit || c = '_' || c = '$' || c = '\x27' || isNameQuote c
    || (punctuation? c).isSome

theorem not_isMark_of_isBlank {c : Char} (h : Text.isBlank c = true) : isMark c = false := by
  simpa using of_isBlank (p := fun c => !isMark c) (by decide +kernel) h

theorem not_isBlank_of_isIdentifierChar {c : Char} (h : isIdentifierChar c = true) :
    Text.isBlank c = false := by
  refine Bool.eq_false_iff.mpr fun hc => ?_
  have hletter := isAlphabetic_of_isBlank hc
  have hmark := not_isMark_of_isBlank hc
  simp_all [isIdentifierChar, Text.isAlphanumeric, isMark]

theorem not_isBlank_of_startsToken {c : Char} (h : startsToken c = true) :
    Text.isBlank c = false := by
  refine Bool.eq_false_iff.mpr fun hc => ?_
  have hletter := isAlphabetic_of_isBlank hc
  have hmark := not_isMark_of_isBlank hc
  simp_all [startsToken, isIdentifierStart, isMark]

/-! ## Whole tokens -/

theorem Whole.ne_nil (h : Whole kind text) : text ≠ [] :=
  (append_of_scanToken h).2

theorem Whole.scanToken_append (h : Whole kind text) (hrest : Delimited rest) :
    scanToken (text ++ rest) = .token kind text rest := by
  refine scanToken_resumes (a := []) ?_ (.stop [] hrest)
  rw [List.append_nil]
  exact h

/-- No comment begins with a whole token. -/
theorem Whole.scanComment_append (h : Whole kind text) (hdash : rest.head? ≠ some '-')
    (hstar : rest.head? ≠ some '*') : scanComment (text ++ rest) = .absent := by
  unfold Whole at h
  cases text with
  | nil => simp [scanToken] at h
  | cons c text =>
      have hc := startsToken_of_scanToken h
      unfold scanComment
      split
      next heq =>
        simp only [List.cons_append, List.cons.injEq] at heq
        obtain ⟨rfl, -⟩ := heq
        exact absurd hc (by decide)
      next heq =>
        cases text with
        | nil => simp_all
        | cons d text =>
            simp only [List.cons_append, List.cons.injEq] at heq
            obtain ⟨rfl, rfl, -⟩ := heq
            simp [scanToken, isNameQuote, isIdentifierStart, Text.isAlphabetic, punctuation?] at h
      next heq =>
        cases text with
        | nil => simp_all
        | cons d text =>
            simp only [List.cons_append, List.cons.injEq] at heq
            obtain ⟨rfl, rfl, -⟩ := heq
            simp [scanToken, isNameQuote, isIdentifierStart, Text.isAlphabetic, punctuation?] at h
      next => rfl

/-! ## Reading a piece -/

theorem Piece.readBefore (hgap : ∀ c ∈ gap, Text.isBlank c = true)
    (hscan : scanToken (text ++ rest) = .token kind text rest)
    (hcomment : scanComment (text ++ rest) = .absent) :
    ReadBefore ⟨gap, kind, text⟩ rest := by
  intro offset
  have hhead : (text ++ rest).head?.any Text.isBlank = false := by
    have hne := (append_of_scanToken hscan).2
    cases text with
    | nil => exact absurd rfl hne
    | cons c text => simpa using not_isBlank_of_startsToken (startsToken_of_scanToken hscan)
  have hskip := Cursor.skipBlanks_eq offset hgap hhead
  have hstart : Cursor.skipGap ⟨offset, gap ++ (text ++ rest)⟩
      = .ok ⟨offset + Text.byteLength gap, text ++ rest⟩ := by
    rw [Cursor.skipGap_of_absent, hskip]
    rw [hskip]
    exact hcomment
  simp only [spelling, List.append_assoc, Cursor.next, hstart, Cursor.read, hscan]
  simp [token, spelling, Cursor.skip, Nat.add_assoc]

/-! ## Lists of pieces -/

section Legible

variable {ps qs pieces : List Piece}

theorem Delimited.of_resumes {a b : List Char} (h : Resumes a b) (ha : Delimited a) :
    Delimited b := by
  cases h with
  | stop _ hb => exact hb
  | step c _ => simpa using ha

theorem Delimited.head?_ne {a : List Char} {c : Char} (h : Delimited a) (hc : c ∉ delimiters) :
    a.head? ≠ some c :=
  fun ha => hc (h c ha)

theorem legible_nil : Legible [] :=
  trivial

/-- A whole token in front of a delimiter. -/
theorem Legible.cons (hgap : ∀ c ∈ gap, Text.isBlank c = true) (hwhole : Whole kind text)
    (hkind : kind ≠ .semicolon ∧ kind ≠ .endOfInput) (hdelimited : Delimited (spelling pieces))
    (h : Legible pieces) : Legible (⟨gap, kind, text⟩ :: pieces) := by
  refine ⟨hkind, fun b hb => ?_, h⟩
  have hnext := Delimited.of_resumes hb hdelimited
  exact Piece.readBefore hgap (hwhole.scanToken_append hnext)
    (hwhole.scanComment_append (hnext.head?_ne (by decide)) (hnext.head?_ne (by decide)))

theorem Legible.leftParen (hgap : ∀ c ∈ gap, Text.isBlank c = true) (h : Legible pieces) :
    Legible (⟨gap, .leftParen, ['(']⟩ :: pieces) :=
  ⟨by simp, fun _ _ => Piece.readBefore hgap rfl rfl, h⟩

theorem Legible.rightParen (hgap : ∀ c ∈ gap, Text.isBlank c = true) (h : Legible pieces) :
    Legible (⟨gap, .rightParen, [')']⟩ :: pieces) :=
  ⟨by simp, fun _ _ => Piece.readBefore hgap rfl rfl, h⟩

theorem Legible.comma (h : Legible pieces) : Legible (⟨[], .comma, [',']⟩ :: pieces) :=
  ⟨by simp, fun _ _ => Piece.readBefore (by simp) rfl rfl, h⟩

/-- A minus sign in front of anything but another one. -/
theorem Legible.minus (hgap : ∀ c ∈ gap, Text.isBlank c = true)
    (hhead : (spelling pieces).head? ≠ some '-') (h : Legible pieces) :
    Legible (⟨gap, .symbol '-', ['-']⟩ :: pieces) := by
  refine ⟨by simp, fun b hb => ?_, h⟩
  have hb' := hb.continues.head?_ne (by decide) hhead
  refine Piece.readBefore hgap ?_ ?_
  · simp [scanToken, isNameQuote, isIdentifierStart, Text.isAlphabetic, punctuation?]
  · cases b with
    | nil => rfl
    | cons d b =>
        have hd : d ≠ '-' := by simpa using hb'
        simp [scanComment, hd]

theorem Resumes.of_append {a y b : List Char} (h : Resumes (a ++ y) b) (hy : Delimited y) :
    Resumes a b := by
  induction a generalizing b with
  | nil => exact .stop [] (Delimited.of_resumes h hy)
  | cons c a ih =>
      cases h with
      | stop _ hb => exact .stop _ hb
      | step _ hab => exact (ih hab).step c

theorem Legible.append (hps : Legible ps) (hqs : Legible qs)
    (hdelimited : Delimited (spelling qs)) : Legible (ps ++ qs) := by
  induction ps with
  | nil => exact hqs
  | cons piece ps ih =>
      obtain ⟨hkind, hread, hrest⟩ := hps
      refine ⟨hkind, fun b hb => hread b ?_, ih hrest⟩
      exact Resumes.of_append (spelling_append ps qs ▸ hb) hdelimited

/-- Legible pieces are read one by one. -/
theorem Cursor.lexemes_spelling (h : Legible pieces) (hrest : Delimited rest) (offset : Nat) :
    lexemes ⟨offset, spelling pieces ++ rest⟩
      = (tokensAt offset pieces).map .ok
        ++ lexemes ⟨offset + Text.byteLength (spelling pieces), rest⟩ := by
  induction pieces generalizing offset with
  | nil => simp
  | cons piece pieces ih =>
      obtain ⟨hkind, hread, hpieces⟩ := h
      have hresumes : Resumes (spelling pieces) (spelling pieces ++ rest) := by
        have happend := (Resumes.stop [] hrest).append (spelling pieces)
        rwa [List.append_nil] at happend
      have hnext := hread _ hresumes offset
      rw [spelling_cons, List.append_assoc, lexemes_of_not_isEnd, hnext]
      · simp [ih hpieces, Nat.add_assoc]
      · simp [hnext, Lexeme.isEnd, hkind.2]

end Legible

/-! ## Pieces that are read -/

/-- A piece that is read is one token, with no comment at its start. -/
theorem Piece.ReadBefore.scan {piece : Piece} {rest : List Char} (h : piece.ReadBefore rest)
    (hend : piece.kind ≠ .endOfInput) :
    scanToken (piece.text ++ rest) = .token piece.kind piece.text rest
      ∧ scanComment (piece.text ++ rest) = .absent := by
  have hnext := h 0
  unfold Cursor.next at hnext
  split at hnext
  next start hgap =>
    have hcomment := Cursor.scanComment_of_skipGap hgap
    unfold Cursor.read at hnext
    split at hnext
    next kind text rest' hscan =>
      simp only [Piece.token, Cursor.skip, Prod.mk.injEq, Except.ok.injEq, Token.mk.injEq,
        String.ofList_inj, Cursor.mk.injEq] at hnext
      obtain ⟨⟨rfl, -, rfl⟩, -, rfl⟩ := hnext
      have happend := (append_of_scanToken hscan).1
      rw [happend]
      exact ⟨hscan, hcomment⟩
    next =>
      simp only [Prod.mk.injEq, Except.ok.injEq] at hnext
      exact absurd (congrArg Token.kind hnext.1).symm hend
    all_goals simp at hnext
  next => simp at hnext

theorem Legible.whole {piece : Piece} {pieces : List Piece} (h : Legible (piece :: pieces)) :
    Whole piece.kind piece.text := by
  have hscan := ((h.2.1 [] (.stop _ delimited_nil)).scan h.1.2).1
  rwa [List.append_nil] at hscan

theorem Legible.whole_of_getLast? {pieces : List Piece} {last : Piece} (h : Legible pieces)
    (hlast : pieces.getLast? = some last) : Whole last.kind last.text := by
  obtain ⟨front, hsplit⟩ := List.getLast?_eq_some_iff.mp hlast
  rw [hsplit] at h
  have hpiece : Legible [last] := h.of_append_right
  exact hpiece.whole

/-- The gap in front of the first piece may be any blanks. -/
theorem Legible.regap {piece : Piece} {pieces : List Piece} {gap : List Char}
    (h : Legible (piece :: pieces)) (hgap : ∀ c ∈ gap, Text.isBlank c = true) :
    Legible ({ piece with gap } :: pieces) := by
  refine ⟨h.1, fun b hb => ?_, h.2.2⟩
  obtain ⟨hscan, hcomment⟩ := (h.2.1 b hb).scan h.1.2
  exact Piece.readBefore hgap hscan hcomment

/-! ## The end of a token -/

theorem not_isBlank_of_isHexDigit {c : Char} (h : Text.isHexDigit c = true) :
    Text.isBlank c = false := by
  refine Bool.eq_false_iff.mpr fun hc => ?_
  have hnot := of_isBlank (p := fun c => !Text.isHexDigit c) (by decide) hc
  simp [h] at hnot

theorem last_takeWhile {p : Char → Bool} (hp : ∀ c, p c = true → Text.isBlank c = false)
    (front : List Char) {cs : List Char} (h : cs.head?.any p = true) :
    (front ++ cs.takeWhile p).getLast?.any Text.isBlank = false := by
  cases hlast : (cs.takeWhile p).getLast? with
  | none =>
      cases cs with
      | nil => simp at h
      | cons d cs =>
          have hd : p d = true := by simpa using h
          simp [hd] at hlast
  | some c =>
      have hc := List.all_eq_true.mp List.all_takeWhile c (List.mem_of_getLast? hlast)
      simp [List.getLast?_append, hlast, hp c hc]

theorem scanPlainBinary?_last {cs text rest : List Char}
    (h : scanPlainBinary? cs = some (text, rest)) : text.getLast?.any Text.isBlank = false := by
  unfold scanPlainBinary? at h
  split at h
  next mark d cs =>
    split at h
    next hmark =>
      simp only [Option.some.injEq, Prod.mk.injEq] at h
      rw [← h.1]
      exact last_takeWhile (fun _ => not_isBlank_of_isHexDigit) ['0', mark] (by simpa using hmark.2)
    next => simp at h
  next => simp at h

theorem scanNumeric_last {cs text rest : List Char} {kind : TokenKind}
    (h : scanNumeric cs = .token kind text rest) (hnumber : ∀ s, kind ≠ .number s) :
    text.getLast?.any Text.isBlank = false := by
  cases scanned_of_scanNumeric h with
  | binary hbinary => exact scanPlainBinary?_last hbinary
  | word _ _ hhead hword _ =>
      rw [← hword]
      exact last_takeWhile (fun _ => not_isBlank_of_isIdentifierChar) _ hhead
  | number _ _ _ => exact absurd rfl (hnumber _)

theorem scanToken_last {c : Char} {cs text rest : List Char} {kind : TokenKind}
    (h : scanToken (c :: cs) = .token kind text rest) (hnumber : ∀ s, kind ≠ .number s) :
    text.getLast?.any Text.isBlank = false := by
  have hstart := not_isBlank_of_startsToken (startsToken_of_scanToken h)
  have hquote : Text.isBlank '\x27' = false := by decide
  cases scanned_of_scanToken h with
  | string _ _ =>
      rw [← List.cons_append, List.getLast?_concat]
      exact hquote
  | quoted _ _ _ =>
      rw [← List.cons_append, List.getLast?_concat]
      exact hstart
  | binary _ _ _ =>
      rw [← List.cons_append, ← List.cons_append, List.getLast?_concat]
      exact hquote
  | numeric _ _ hnumeric => exact scanNumeric_last hnumeric hnumber
  | word _ _ _ htext _ =>
      rw [← htext, List.getLast?_cons]
      cases hword : (cs.takeWhile isIdentifierChar).getLast? with
      | none => exact hstart
      | some d =>
          have hd := List.all_eq_true.mp List.all_takeWhile d (List.mem_of_getLast? hword)
          exact not_isBlank_of_isIdentifierChar hd
  | punctuation _ _ _ _ _ => exact hstart

theorem Whole.isBlank_head? {kind : TokenKind} {text : List Char} (h : Whole kind text) :
    text.head?.any Text.isBlank = false := by
  unfold Whole at h
  cases text with
  | nil => rfl
  | cons c text => simpa using not_isBlank_of_startsToken (startsToken_of_scanToken h)

theorem Whole.isBlank_getLast? {kind : TokenKind} {text : List Char} (h : Whole kind text)
    (hnumber : ∀ s, kind ≠ .number s) : text.getLast?.any Text.isBlank = false := by
  unfold Whole at h
  cases text with
  | nil => rfl
  | cons c text => exact scanToken_last h hnumber

end SchemaDelta.Sql
