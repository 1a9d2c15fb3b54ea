import SchemaDelta.Proofs.Parsing.Literal

/-!
# Default values are read back

A default value is readable when what the dialect writes for it is legible and read
as a literal that stands for it.  This is so for every value that a literal of a
script stands for.
-/

namespace SchemaDelta

open Sql Sql.Parser

/-! ## Whole numbers -/

namespace Text

theorem int64?_of_nat? {digits : List Char} {n : Nat}
    (hhead : digits.head?.any Char.isDigit = true) (h : nat? digits = some n)
    (hn : (n : Int) ≤ 9223372036854775807) : int64? digits = some (n : Int) := by
  have hbounds : (-9223372036854775808 ≤ (n : Int) && (n : Int) ≤ 9223372036854775807) = true := by
    simp only [Bool.and_eq_true, decide_eq_true_eq]
    omega
  have hvalue : (some (n : Int)).filter (fun i => -9223372036854775808 ≤ i
      && i ≤ 9223372036854775807) = some (n : Int) := by rw [Option.filter_some, if_pos hbounds]
  unfold int64?
  cases digits with
  | nil => simp at hhead
  | cons c digits =>
      have hc : c.isDigit = true := by simpa using hhead
      dsimp only
      split
      next heq =>
        simp only [List.cons.injEq] at heq
        exact absurd (heq.1 ▸ hc) (by decide)
      next heq =>
        simp only [List.cons.injEq] at heq
        exact absurd (heq.1 ▸ hc) (by decide)
      next =>
        rw [h]
        exact hvalue

theorem int64?_minus {digits : List Char} {n : Nat} (h : nat? digits = some n)
    (hn : (n : Int) ≤ 9223372036854775808) : int64? ('-' :: digits) = some (-(n : Int)) := by
  have hbounds : (-9223372036854775808 ≤ -(n : Int) && -(n : Int) ≤ 9223372036854775807)
      = true := by
    simp only [Bool.and_eq_true, decide_eq_true_eq]
    omega
  have hvalue : (some (-(n : Int))).filter (fun i => -9223372036854775808 ≤ i
      && i ≤ 9223372036854775807) = some (-(n : Int)) := by
    rw [Option.filter_some, if_pos hbounds]
  simp only [int64?, h]
  exact hvalue

theorem bounds_of_int64? {cs : List Char} {value : Int} (h : int64? cs = some value) :
    -9223372036854775808 ≤ value ∧ value ≤ 9223372036854775807 := by
  have hbounds := (Option.filter_eq_some_iff.mp h).2
  simpa using hbounds

end Text

theorem head?_toString_isDigit (n : Nat) : (toString n).toList.head?.any Char.isDigit = true := by
  cases hhead : (toString n).toList.head? with
  | none => exact absurd (List.head?_eq_none_iff.mp hhead) (toList_toString_ne_nil n)
  | some c => simpa using isDigit_of_mem_toString c (List.mem_of_head? hhead)

theorem Text.int64?_toString {value : Int} (hlow : -9223372036854775808 ≤ value)
    (hhigh : value ≤ 9223372036854775807) : int64? (toString value).toList = some value := by
  cases value with
  | ofNat n => exact int64?_of_nat? (head?_toString_isDigit n) (nat?_toString n) hhigh
  | negSucc n =>
      have htext : (toString (Int.negSucc n)).toList = '-' :: (toString (n + 1)).toList := by
        change ("-" ++ toString (n + 1)).toList = _
        simp
      rw [htext, int64?_minus (nat?_toString (n + 1)) (by omega)]
      rfl

theorem Build.defaultOf?_number_cases {text : String} {value : DefaultValue}
    (h : defaultOf? (.number text) = some value) :
    (∃ n, Text.int64? text.toList = some n ∧ value = .integer n) ∨
      Text.int64? text.toList = none ∧ value = .expression text := by
  unfold defaultOf? at h
  dsimp only at h
  split at h
  next n hn => exact .inl ⟨n, hn, (Option.some.inj h).symm⟩
  next hnone => exact .inr ⟨hnone, (Option.some.inj h).symm⟩

namespace DefaultValue

/-- What the dialect writes for the value is read as a literal that stands for it. -/
def Readable (value : DefaultValue) : Prop :=
  ∃ pieces literal, spelling pieces = ' ' :: value.sql.toList ∧ Legible pieces
    ∧ Accepts Parser.literal pieces literal afterOption
    ∧ Build.defaultOf? literal = some value

theorem readable_string (value : String) : (string value).Readable := by
  refine ⟨[stringPiece [' '] value], .string value, ?_, ?_, ?_, rfl⟩
  · simp [stringPiece, Piece.spelling, sql]
  · exact legible_stringPiece value isBlank_of_mem_space (by simp) legible_nil
  · exact (accepts_literal_string rfl).mono fun _ _ => trivial

section Number

variable {value : DefaultValue} {text : String}

theorem Readable.number (hwhole : Whole (.number text) text.toList)
    (hvalue : Build.defaultOf? (.number text) = some value) (hsql : value.sql = text) :
    value.Readable := by
  refine ⟨[⟨[' '], .number text, text.toList⟩], .number text, ?_, ?_, ?_, hvalue⟩
  · simp [Piece.spelling, hsql]
  · exact legible_nil.cons isBlank_of_mem_space hwhole (by simp) (by simp)
  · exact (accepts_literal_number rfl).mono fun _ _ => trivial

theorem Readable.negative (hwhole : Whole (.number text) text.toList)
    (hvalue : Build.defaultOf? (.number ("-" ++ text)) = some value)
    (hsql : value.sql = "-" ++ text) : value.Readable := by
  have hdigit := hwhole.number.2
  refine ⟨[⟨[' '], .symbol '-', ['-']⟩, ⟨[], .number text, text.toList⟩],
    .number ("-" ++ text), ?_, ?_, ?_, hvalue⟩
  · simp [Piece.spelling, hsql]
  · refine Legible.minus isBlank_of_mem_space ?_
      (legible_nil.cons (by simp) hwhole (by simp) (by simp))
    intro hhead
    simp only [spelling_cons, spelling_nil, Piece.spelling, List.nil_append,
      List.append_nil] at hhead
    rw [hhead] at hdigit
    exact absurd hdigit (by decide)
  · exact (accepts_literal_negative rfl rfl).mono fun _ _ => trivial

theorem readable_integer {value : Int} (hlow : -9223372036854775808 ≤ value)
    (hhigh : value ≤ 9223372036854775807) : (integer value).Readable := by
  have hvalue : Build.defaultOf? (.number (toString value)) = some (integer value) := by
    rw [Build.defaultOf?, Text.int64?_toString hlow hhigh]
  cases value with
  | ofNat n => exact Readable.number (whole_toString n) hvalue rfl
  | negSucc n => exact Readable.negative (whole_toString (n + 1)) hvalue rfl

/-- Numbers that are no whole numbers of 64 bits are written as they were. -/
theorem readable_of_number (hwhole : Whole (.number text) text.toList)
    (hvalue : Build.defaultOf? (.number text) = some value) : value.Readable := by
  obtain ⟨n, hn, rfl⟩ | ⟨-, rfl⟩ := Build.defaultOf?_number_cases hvalue
  · obtain ⟨hlow, hhigh⟩ := Text.bounds_of_int64? hn
    exact readable_integer hlow hhigh
  · exact Readable.number hwhole hvalue rfl

theorem readable_of_negative (hwhole : Whole (.number text) text.toList)
    (hvalue : Build.defaultOf? (.number ("-" ++ text)) = some value) : value.Readable := by
  obtain ⟨n, hn, rfl⟩ | ⟨-, rfl⟩ := Build.defaultOf?_number_cases hvalue
  · obtain ⟨hlow, hhigh⟩ := Text.bounds_of_int64? hn
    exact readable_integer hlow hhigh
  · exact Readable.negative hwhole hvalue rfl

end Number

/-! ## Expressions -/

def timestampPiece : Piece :=
  ⟨[' '], wordKind "CURRENT_TIMESTAMP".toList, "CURRENT_TIMESTAMP".toList⟩

theorem legible_timestampPiece {pieces : List Piece} (hnext : Delimited (spelling pieces))
    (h : Legible pieces) : Legible (timestampPiece :: pieces) :=
  h.cons isBlank_of_mem_space rfl (by decide) hnext

theorem readable_timestamp : (expression "CURRENT_TIMESTAMP").Readable := by
  refine ⟨[timestampPiece], _, ?_, legible_timestampPiece (by simp) legible_nil,
    accepts_literal_word rfl (by decide), ?_⟩
  · rfl
  · rw [timestampPiece, String.ofList_toList]
    rfl

def precisionPieces (digits : List Char) : List Piece :=
  [⟨[], .number (String.ofList digits), digits⟩, closePiece []]

theorem readable_timestampCall {digits : List Char} (h : IsPrecision digits) :
    (expression (timestampCall digits)).Readable := by
  have hlegible : Legible (openPiece [] :: precisionPieces digits) := by
    refine Legible.leftParen (by simp) ?_
    exact Legible.cons (by simp) (whole_digits h.ne_nil h.isDigit) (by simp)
      (delimited_of_head? rfl (by decide)) (legible_nil.rightParen (by simp))
  have htext : groupText (timestampPiece :: openPiece [] :: precisionPieces digits)
      = (timestampCall digits).toList := by
    rw [toList_timestampCall]
    simp [groupText, timestampPiece, openPiece, precisionPieces, closePiece, Piece.spelling]
  refine ⟨timestampPiece :: openPiece [] :: precisionPieces digits, _, ?_,
    legible_timestampPiece ?_ hlegible,
    (accepts_literal_call rfl (by decide) rfl ?_).mono fun _ _ => trivial, ?_⟩
  · rw [sql, ← htext]
    rfl
  · exact delimited_of_head? rfl (by decide)
  · exact rfl
  · rw [htext, String.ofList_toList, Build.defaultOf?, h.ofExpression_eq]

/-- The text of legible pieces has no blanks at its ends, unless the last one is a
number. -/
theorem trim_groupText {piece last : Piece} {pieces : List Piece}
    (h : Legible (piece :: pieces)) (hlast : (piece :: pieces).getLast? = some last)
    (hnumber : ∀ text, last.kind ≠ .number text) :
    Text.trim (groupText (piece :: pieces)) = groupText (piece :: pieces) := by
  have hfirst := h.whole
  have hwhole := h.whole_of_getLast? hlast
  refine Text.trim_eq_self ?_ ?_
  · have hhead := hfirst.isBlank_head?
    have hne := hfirst.ne_nil
    cases htext : piece.text with
    | nil => exact absurd htext hne
    | cons c text => simpa [groupText, htext] using hhead
  · have hblank := hwhole.isBlank_getLast? hnumber
    rwa [getLast?_groupText hlast hwhole.ne_nil]

/-- An expression that is kept as it is written is written with the same pieces. -/
theorem readable_ofExpression {piece last : Piece} {pieces : List Piece}
    (h : Legible (piece :: pieces)) (hlast : (piece :: pieces).getLast? = some last)
    (hnumber : ∀ text, last.kind ≠ .number text)
    (haccepts : Accepts Parser.literal ({ piece with gap := [' '] } :: pieces)
      (.expression (String.ofList (groupText (piece :: pieces)))) afterOption) :
    (ofExpression (String.ofList (groupText (piece :: pieces)))).Readable := by
  have htrim := trim_groupText h hlast hnumber
  have hcases := ofExpression_cases (String.ofList (groupText (piece :: pieces)))
    (by rwa [String.toList_ofList])
  rcases hcases with hsame | hword | ⟨digits, hdigits, hcall⟩
  · rw [hsame]
    refine ⟨_, _, ?_, h.regap isBlank_of_mem_space, haccepts, ?_⟩
    · simp [sql, groupText, Piece.spelling]
    · rw [Build.defaultOf?, hsame]
  · rw [hword]
    exact readable_timestamp
  · rw [hcall]
    exact readable_timestampCall hdigits

end DefaultValue

end SchemaDelta
