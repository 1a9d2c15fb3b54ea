import SchemaDelta.Catalog
import SchemaDelta.Proofs.Parsing.Readable
import SchemaDelta.Proofs.Parsing.Script

/-!
# Defaults as catalogs report them

A catalog reports a default as a text, and does not say what sort of value it is.  For
every value that a script gave, what the text is taken for has this text again.
-/

namespace SchemaDelta

open Sql Sql.Parser

/-! ## Texts that are no numbers -/

namespace Text

theorem int64?_eq_none_of_mem {cs : List Char} {c : Char} (hmem : c ∈ cs)
    (hdigit : c.isDigit = false) (hsign : c ≠ '-' ∧ c ≠ '+') : int64? cs = none := by
  have hnone : ∀ digits : List Char, c ∈ digits → nat? digits = none := by
    intro digits hdigits
    have hall : digits.all Char.isDigit = false :=
      List.all_eq_false.mpr ⟨c, hdigits, by simp [hdigit]⟩
    rw [nat?, hall]
    simp
  unfold int64?
  split
  next digits =>
    rw [hnone digits ((List.mem_cons.mp hmem).resolve_left hsign.1)]
    rfl
  next digits =>
    rw [hnone digits ((List.mem_cons.mp hmem).resolve_left hsign.2)]
    rfl
  next =>
    rw [hnone cs hmem]
    rfl

/-- A whole token that begins with a sign is the sign. -/
theorem eq_nil_of_whole_sign {kind : TokenKind} {sign : Char} {cs : List Char}
    (hsign : sign = '-' ∨ sign = '+') (h : Whole kind (sign :: cs)) : cs = [] := by
  have hscan : scanToken (sign :: cs) = .token (.symbol sign) [sign] cs := by
    rcases hsign with rfl | rfl <;>
      simp [scanToken, isNameQuote, isIdentifierStart, isAlphabetic, punctuation?]
  exact (TokenScan.token.inj (hscan.symm.trans h)).2.2

/-- A whole token that is no number does not read as one. -/
theorem int64?_eq_none_of_whole {kind : TokenKind} {text : List Char} (h : Whole kind text)
    (hnumber : ∀ value, kind ≠ .number value) : int64? text = none := by
  unfold int64?
  split
  next digits =>
    rw [eq_nil_of_whole_sign (.inl rfl) h]
    rfl
  next digits =>
    rw [eq_nil_of_whole_sign (.inr rfl) h]
    rfl
  next =>
    have hdigits : text.all Char.isDigit = false := by
      refine Bool.eq_false_iff.mpr fun hall => ?_
      have hwhole := whole_digits h.ne_nil (List.all_eq_true.mp hall)
      exact hnumber _ (TokenScan.token.inj (h.symm.trans hwhole)).1
    rw [nat?, hdigits]
    simp

end Text

/-! ## What is told by a text alone -/

/-- A text with other letters than `NULL` is another word. -/
theorem not_null_of_mem {text : String} {c : Char} (hmem : c ∈ text.toList)
    (hc : c.toLower ∉ "null".toList) : sameName text "NULL" = false := by
  refine Bool.eq_false_iff.mpr fun hsame => hc ?_
  have heq := congrArg String.toList (sameName_iff.mp hsame)
  rw [lowerCase, String.toList_ofList] at heq
  have hlower : c.toLower ∈ text.toList.map Char.toLower := List.mem_map_of_mem hmem
  rw [heq] at hlower
  exact hlower

theorem startsWithWord_eq_false (word : String) {text : String} {c d : Char}
    (hword : word.toList.head? = some c)
    (htext : text.toList.head? = some d) (hne : d.toUpper ≠ c) :
    Catalog.startsWithWord word text = false := by
  obtain ⟨rest, hrest⟩ := List.head?_eq_some_iff.mp hword
  obtain ⟨others, hothers⟩ := List.head?_eq_some_iff.mp htext
  unfold Catalog.startsWithWord upperCase
  rw [hrest, String.toList_ofList, hothers]
  simp [List.isPrefixOf, Ne.symm hne]

def numberStarts : List Char :=
  "-0123456789".toList

theorem mem_numberStarts_of_isDigit {c : Char} (h : c.isDigit = true) : c ∈ numberStarts := by
  have hpoint : ∀ n ∈ List.range' 48 10, Char.ofNat n ∈ numberStarts := by decide
  simp only [Char.isDigit, Bool.and_eq_true, decide_eq_true_eq] at h
  have hlow : 48 ≤ c.toNat := h.1
  have hhigh : c.toNat ≤ 57 := h.2
  have hmem := hpoint c.toNat (by rw [List.mem_range'_1]; omega)
  rwa [Char.ofNat_toNat] at hmem

theorem not_null_of_number {text : String} {c : Char} (hhead : text.toList.head? = some c)
    (hc : c ∈ numberStarts) : sameName text "NULL" = false := by
  have hlower : ∀ c ∈ numberStarts, c.toLower ∉ "null".toList :=
    List.all_iff_forall_prop.mp (by decide)
  exact not_null_of_mem (List.mem_of_head? hhead) (hlower c hc)

theorem not_meansTimestamp_of_number {text : String} {c : Char}
    (hhead : text.toList.head? = some c) (hc : c ∈ numberStarts) :
    Catalog.meansTimestamp text = false := by
  have hupper : ∀ c ∈ numberStarts, c.toUpper ≠ 'C' ∧ c.toUpper ≠ 'L' ∧ c.toUpper ≠ 'N' :=
    List.all_iff_forall_prop.mp (by decide)
  obtain ⟨hC, hL, hN⟩ := hupper c hc
  have hcurrent := startsWithWord_eq_false "CURRENT_TIMESTAMP" rfl hhead hC
  have hlocal := startsWithWord_eq_false "LOCALTIME" rfl hhead hL
  have hnow := startsWithWord_eq_false "NOW(" rfl hhead hN
  simp [Catalog.meansTimestamp, hcurrent, hlocal, hnow]

theorem head?_ne_of_number {text : String} {c : Char} (hhead : text.toList.head? = some c)
    (hc : c ∈ numberStarts) :
    text.toList.head? ≠ some '\x27' ∧ text.toList.head? ≠ some '(' := by
  have hne : ∀ c ∈ numberStarts, c ≠ '\x27' ∧ c ≠ '(' := List.all_iff_forall_prop.mp (by decide)
  rw [hhead]
  simpa using hne c hc

namespace DefaultValue

/-- An expression whose text is taken for nothing else but a string of the same text. -/
structure Telling (text : String) : Prop where
  quote : text.toList.head? ≠ some '\x27'
  null : sameName text "NULL" = false
  number : Text.int64? text.toList = none
  canonical : ofExpression text = .expression text ∨
    Catalog.meansTimestamp text = false ∧ text.toList.head? ≠ some '('

/-- The value is taken for one of the same text when its own text is reported. -/
def Reportable : DefaultValue → Prop
  | integer value => -9223372036854775808 ≤ value ∧ value ≤ 9223372036854775807
  | string _ => True
  | expression text => Telling text

/-! ## What literals stand for -/

/-- A number that is too large, or no whole number. -/
theorem telling_number {text : String} {c : Char} (hhead : text.toList.head? = some c)
    (hc : c ∈ numberStarts) (hnumber : Text.int64? text.toList = none) : Telling text :=
  ⟨(head?_ne_of_number hhead hc).1, not_null_of_number hhead hc, hnumber,
    .inr ⟨not_meansTimestamp_of_number hhead hc, (head?_ne_of_number hhead hc).2⟩⟩

theorem reportable_number {text : String} {c : Char} {value : DefaultValue}
    (hhead : text.toList.head? = some c) (hc : c ∈ numberStarts)
    (hvalue : Build.defaultOf? (.number text) = some value) : value.Reportable := by
  obtain ⟨n, hn, rfl⟩ | ⟨hnone, rfl⟩ := Build.defaultOf?_number_cases hvalue
  · exact Text.bounds_of_int64? hn
  · exact telling_number hhead hc hnone

theorem telling_timestamp : Telling "CURRENT_TIMESTAMP" :=
  ⟨by decide, by decide, by decide, .inl (by decide)⟩

theorem IsPrecision.telling {digits : List Char} (h : IsPrecision digits) :
    Telling (timestampCall digits) := by
  have hlist := toList_timestampCall digits
  have hopen : '(' ∈ (timestampCall digits).toList := by simp [hlist]
  refine ⟨?_, not_null_of_mem hopen (by decide),
    Text.int64?_eq_none_of_mem hopen (by decide) (by decide), .inl h.ofExpression_eq⟩
  rw [hlist]
  simp

/-- An expression is reported in its canonical spelling. -/
theorem reportable_ofExpression {text : String} (htrim : Text.trim text.toList = text.toList)
    (hquote : text.toList.head? ≠ some '\x27') (hnull : sameName text "NULL" = false)
    (hnumber : Text.int64? text.toList = none) : (ofExpression text).Reportable := by
  rcases ofExpression_cases text htrim with hsame | hword | ⟨digits, hdigits, hcall⟩
  · rw [hsame]
    exact ⟨hquote, hnull, hnumber, .inl hsame⟩
  · rw [hword]
    exact telling_timestamp
  · rw [hcall]
    exact hdigits.telling

/-- The text of pieces that end in no number is reported in its canonical spelling. -/
theorem reportable_groupText {piece last : Piece} {pieces : List Piece}
    (h : Legible (piece :: pieces)) (hlast : (piece :: pieces).getLast? = some last)
    (hkind : ∀ text, last.kind ≠ .number text) (hquote : piece.text.head? ≠ some '\x27')
    (hnull : sameName (String.ofList (groupText (piece :: pieces))) "NULL" = false)
    (hnumber : Text.int64? (groupText (piece :: pieces)) = none) :
    (ofExpression (String.ofList (groupText (piece :: pieces)))).Reportable := by
  have hhead : (groupText (piece :: pieces)).head? = piece.text.head? := by
    have hne := h.whole.ne_nil
    cases htext : piece.text with
    | nil => exact absurd htext hne
    | cons c text => simp [groupText, htext]
  refine reportable_ofExpression ?_ ?_ hnull ?_
  · rw [String.toList_ofList, trim_groupText h hlast hkind]
  · rwa [String.toList_ofList, hhead]
  · rwa [String.toList_ofList]

section Words

variable {word piece : Piece} {inner : List Piece}

theorem head?_ne_quote_of_word {kind : TokenKind} {text : List Char} (h : Whole kind text)
    (hkind : isWordKind kind = true) : text.head? ≠ some '\x27' := by
  unfold Whole at h
  cases text with
  | nil => simp
  | cons c text =>
      have hunquoted := (scanToken_word h hkind).1
      simpa using hunquoted.string

theorem not_null_of_word {text : List Char} {kind : TokenKind} (h : Whole kind text)
    (hkind : isWordKind kind = true) (hnull : kind ≠ .keyword .NULL) :
    sameName (String.ofList text) "NULL" = false := by
  refine Bool.eq_false_iff.mpr fun hsame => hnull ?_
  have hword : Keyword.ofWord? (String.ofList text) = some .NULL := by
    rw [← ofWord?_recase changesCase_toLower]
    change Keyword.ofWord? (lowerCase (String.ofList text)) = _
    rw [sameName_iff.mp hsame]
    decide
  rw [isWord_of_whole h hkind, wordKind, hword]

theorem reportable_word (hlegible : Legible [word]) (hword : isWordKind word.kind = true)
    (hnull : word.kind ≠ .keyword .NULL) :
    (ofExpression (String.ofList (groupText [word]))).Reportable := by
  have hwhole := hlegible.whole
  have hnumber : ∀ text, word.kind ≠ .number text := by
    intro text hkind
    simp [hkind, isWordKind] at hword
  have htext : groupText [word] = word.text := by simp [groupText]
  refine reportable_groupText hlegible rfl hnumber (head?_ne_quote_of_word hwhole hword) ?_ ?_
  · rw [htext]
    exact not_null_of_word hwhole hword hnull
  · rw [htext]
    exact Text.int64?_eq_none_of_whole hwhole hnumber

/-- A parenthesis tells a text from numbers and from `NULL`. -/
theorem reportable_of_closed {last : Piece} (hlegible : Legible (word :: inner))
    (hlast : (word :: inner).getLast? = some last) (hright : last.kind = .rightParen)
    (hmem : '(' ∈ groupText (word :: inner)) (hquote : word.text.head? ≠ some '\x27') :
    (ofExpression (String.ofList (groupText (word :: inner)))).Reportable := by
  refine reportable_groupText hlegible hlast (by simp [hright]) hquote ?_ ?_
  · exact not_null_of_mem (c := '(') (by rwa [String.toList_ofList]) (by decide)
  · exact Text.int64?_eq_none_of_mem hmem (by decide) (by decide)

theorem reportable_group {text : String} (h : IsGroup text) : (ofExpression text).Reportable := by
  obtain ⟨piece, inner, hkind, hcloses, hlegible, rfl⟩ := h
  obtain ⟨last, hend, hright⟩ := hcloses.getLast?_append [piece]
  have htext : piece.text = ['('] := Whole.leftParen (hkind ▸ hlegible.whole)
  refine reportable_of_closed hlegible hend hright ?_ ?_
  · simp [groupText, htext]
  · simp [htext]

theorem reportable_call (hlegible : Legible (word :: piece :: inner))
    (hword : isWordKind word.kind = true) (hkind : piece.kind = .leftParen)
    (hcloses : Closes 0 inner) :
    (ofExpression (String.ofList (groupText (word :: piece :: inner)))).Reportable := by
  obtain ⟨last, hend, hright⟩ := hcloses.getLast?_append [word, piece]
  have hgroup : Legible (piece :: inner) := hlegible.2.2
  have htext : piece.text = ['('] := Whole.leftParen (hkind ▸ hgroup.whole)
  refine reportable_of_closed hlegible hend hright ?_
    (head?_ne_quote_of_word hlegible.whole hword)
  simp [groupText, Piece.spelling, htext]

end Words

theorem head?_of_whole_binary {text : List Char} {value : String} (h : Whole (.binary value) text) :
    ∃ c ∈ 'x' :: 'X' :: 'b' :: 'B' :: numberStarts, text.head? = some c := by
  unfold Whole at h
  cases text with
  | nil => simp [scanToken] at h
  | cons c text =>
      refine ⟨c, ?_, rfl⟩
      generalize hkind : TokenKind.binary value = kind at h
      cases scanned_of_scanToken h with
      | string _ _ => cases hkind
      | quoted _ _ _ => cases hkind
      | binary hc _ _ => exact List.mem_append_left numberStarts hc
      | numeric _ hdigit _ =>
          exact List.mem_append_right ['x', 'X', 'b', 'B'] (mem_numberStarts_of_isDigit hdigit)
      | word _ _ _ _ _ => exact absurd hkind.symm (wordKind_ne rfl _)
      | punctuation _ _ _ hpunctuation _ =>
          exact absurd hkind.symm (punctuation?_ne hpunctuation value).2.1

theorem reportable_binary {text : String} (hwhole : Whole (.binary text) text.toList) :
    (ofExpression text).Reportable := by
  have hlegible : Legible [⟨[], .binary text, text.toList⟩] :=
    legible_nil.cons (by simp) hwhole (by simp) (by simp)
  have hgroup : groupText [⟨[], .binary text, text.toList⟩] = text.toList := by simp [groupText]
  have hplain : ∀ c ∈ 'x' :: 'X' :: 'b' :: 'B' :: numberStarts,
      c ≠ '\x27' ∧ c.toLower ∉ "null".toList := List.all_iff_forall_prop.mp (by decide)
  obtain ⟨c, hc, hhead⟩ := head?_of_whole_binary hwhole
  have hreportable := reportable_groupText hlegible rfl (by simp) ?_ ?_ ?_
  · rwa [hgroup, String.ofList_toList] at hreportable
  · rw [hhead]
    simpa using (hplain c hc).1
  · rw [hgroup, String.ofList_toList]
    exact not_null_of_mem (List.mem_of_head? hhead) (hplain c hc).2
  · rw [hgroup]
    exact Text.int64?_eq_none_of_whole hwhole (by simp)

theorem reportable_of_ofPieces {literal : Literal} {value : DefaultValue} (h : OfPieces literal)
    (hvalue : Build.defaultOf? literal = some value) : value.Reportable := by
  cases h with
  | null => cases hvalue
  | string text =>
      obtain rfl := Option.some.inj hvalue
      exact trivial
  | number hwhole =>
      obtain ⟨c, hhead, hdigit⟩ := (Option.any_eq_true _ _).mp hwhole.number.2
      exact reportable_number hhead (mem_numberStarts_of_isDigit hdigit) hvalue
  | @negative text hwhole =>
      exact reportable_number (c := '-') (by simp) (by decide) hvalue
  | binary hwhole =>
      obtain rfl := Option.some.inj hvalue
      exact reportable_binary hwhole
  | group hgroup =>
      obtain rfl := Option.some.inj hvalue
      exact reportable_group hgroup
  | word hlegible hword hnull =>
      obtain rfl := Option.some.inj hvalue
      exact reportable_word hlegible hword hnull
  | call hlegible hword hnull hkind hcloses =>
      obtain rfl := Option.some.inj hvalue
      exact reportable_call hlegible hword hkind hcloses

/-- A value that is read from what it is written as is the one of a literal of pieces. -/
theorem Readable.exists_ofPieces {value : DefaultValue} (h : value.Readable) :
    ∃ literal, OfPieces literal ∧ Build.defaultOf? literal = some value := by
  obtain ⟨pieces, read, -, hlegible, haccepts, hvalue⟩ := h
  have hcomma : Legible [commaPiece] := legible_nil.comma
  have hall : Legible (pieces ++ [commaPiece]) :=
    hlegible.append hcomma (delimited_of_head? rfl (by decide))
  have hstands : StandsAt (spelling (pieces ++ [commaPiece])) 0 (pieces ++ [commaPiece]) :=
    ⟨[], [], by simp, by simp⟩
  obtain ⟨_, last, rfl, hparse⟩ := haccepts
    ⟨spelling (pieces ++ [commaPiece]), [commaPiece.token (0 + Text.byteLength (spelling pieces))],
      ⟨.endOfInput, .point 0, ""⟩, 0⟩ 0 hstands.left (.inr (.inl rfl))
  refine ⟨_, (ofPieces_literal _ _ _ ⟨⟨0, pieces ++ [commaPiece], ?_, hstands, hall⟩,
    rfl⟩ hparse).1, hvalue⟩
  rw [tokensAt_append]
  rfl

theorem Readable.reportable {value : DefaultValue} (h : value.Readable) : value.Reportable := by
  obtain ⟨literal, hpieces, hvalue⟩ := h.exists_ofPieces
  exact reportable_of_ofPieces hpieces hvalue

end DefaultValue

/-! ## What reported texts are taken for -/

namespace Catalog

theorem stringValue?_stringLiteral (value : String) :
    stringValue? (stringLiteral value) = some value := by
  have hlegible : Legible [stringPiece [] value] :=
    legible_stringPiece value (by simp) (by simp) legible_nil
  have hnone : ∀ c ∈ ([] : List Char), Text.isBlank c = true := by simp
  obtain ⟨stop, hstop, -⟩ :=
    Cursor.lexemes_blank (0 + Text.byteLength (spelling [stringPiece [] value])) hnone
  have hlexemes : Sql.lexemes (stringLiteral value).toList
      = [.ok ((stringPiece [] value).token 0), .ok stop] := by
    have hread := Cursor.lexemes_spelling hlegible delimited_nil 0
    rw [hstop] at hread
    simpa [Sql.lexemes, Cursor.atStart, stringPiece, Piece.spelling] using hread
  have hhead : (stringLiteral value).toList.head? = some '\x27' := by simp [stringLiteral]
  rw [stringValue?, hhead, hlexemes]
  rfl

theorem stringValue?_eq_none {text : String} (h : text.toList.head? ≠ some '\x27') :
    stringValue? text = none := by
  unfold stringValue?
  split
  next hhead _ => exact absurd hhead h
  next => rfl

/-- The word that marks expressions in parentheses. -/
def Marks (extra text : String) : Prop :=
  hasWord "DEFAULT_GENERATED" extra = true ↔ text.toList.head? = some '('

theorem defaultOf?_telling {text extra : String} (h : DefaultValue.Telling text)
    (hextra : Marks extra text) :
    (Build.defaultOf? (defaultLiteral text extra)).map (·.text) = some text := by
  have hexpression : DefaultValue.ofExpression text = .expression text →
      (Build.defaultOf? (.expression text)).map (·.text) = some text := by
    intro hcanonical
    rw [Build.defaultOf?, hcanonical]
    rfl
  have hmarked : meansTimestamp text = false → text.toList.head? = some '(' →
      DefaultValue.ofExpression text = .expression text := fun hmeans hhead =>
    h.canonical.resolve_right fun hplain => hplain.2 hhead
  unfold defaultLiteral
  simp only [stringValue?_eq_none h.quote, h.null, Bool.false_eq_true, if_false]
  split
  next hmeans =>
    exact hexpression (h.canonical.resolve_right fun hplain => by simp [hmeans] at hplain)
  next hmeans =>
    split
    next hword =>
      have hhead := hextra.mp hword
      rw [if_pos hhead]
      exact hexpression (hmarked (Bool.eq_false_iff.mpr hmeans) hhead)
    next =>
      rw [h.number]
      rfl

theorem head?_toString (value : Int) :
    ∃ c ∈ numberStarts, (toString value).toList.head? = some c := by
  cases value with
  | ofNat n =>
      obtain ⟨c, hhead, hdigit⟩ := (Option.any_eq_true _ _).mp (head?_toString_isDigit n)
      exact ⟨c, mem_numberStarts_of_isDigit hdigit, hhead⟩
  | negSucc n =>
      refine ⟨'-', by decide, ?_⟩
      change ("-" ++ toString (n + 1)).toList.head? = _
      simp

theorem defaultOf?_integer {value : Int} {extra : String}
    (h : (DefaultValue.integer value).Reportable)
    (hextra : Marks extra (toString value)) :
    Build.defaultOf? (defaultLiteral (toString value) extra) = some (.integer value) := by
  obtain ⟨c, hc, hhead⟩ := head?_toString value
  obtain ⟨hquote, hopen⟩ := head?_ne_of_number hhead hc
  have hnumber := Text.int64?_toString h.1 h.2
  have hword : hasWord "DEFAULT_GENERATED" extra = false :=
    Bool.eq_false_iff.mpr fun hword => hopen (hextra.mp hword)
  simp only [defaultLiteral, stringValue?_eq_none hquote, not_null_of_number hhead hc,
    not_meansTimestamp_of_number hhead hc, hword, hnumber, Bool.false_eq_true, if_false,
    Option.isSome_some, if_true, Build.defaultOf?]

/-- The text of a default is taken for a value of the same text. -/
theorem text_defaultOf? {value : DefaultValue} {extra : String} (h : value.Reportable)
    (hextra : Marks extra value.sql) :
    (Build.defaultOf? (defaultLiteral value.sql extra)).map (·.text) = some value.text := by
  cases value with
  | integer value =>
      have hvalue := defaultOf?_integer h hextra
      rw [DefaultValue.sql, hvalue]
      rfl
  | string value =>
      rw [DefaultValue.sql, defaultLiteral, stringValue?_stringLiteral]
      rfl
  | expression text => exact defaultOf?_telling h hextra

end Catalog

end SchemaDelta
