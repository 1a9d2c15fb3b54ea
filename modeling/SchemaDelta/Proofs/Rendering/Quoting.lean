import SchemaDelta.Proofs.Rendering.Token
import SchemaDelta.Proofs.Script.Relexing

/-!
# Quoted texts at the beginning of a source

What a dialect writes between quotes is the first token of any source that begins with it, and
stands for the text that was quoted.  Only a source that goes on with another quote is read in
a different way, since the closing quote is then one half of a doubled one.
-/

namespace SchemaDelta.Sql

/-- The text is the first token of the source that it begins, and reading goes on behind it. -/
def ReadFirst (kind : TokenKind) (text : String) (rest : List Char) : Prop :=
  lexemes (text.toList ++ rest)
    = .ok ⟨kind, ⟨0, Text.byteLength text.toList⟩, text⟩
      :: Cursor.lexemes ⟨Text.byteLength text.toList, rest⟩

variable {kind : TokenKind} {text : String} {rest : List Char}

theorem readFirst_of_scanToken (hend : kind ≠ .endOfInput)
    (hscan : scanToken (text.toList ++ rest) = .token kind text.toList rest)
    (hcomment : scanComment (text.toList ++ rest) = .absent) : ReadFirst kind text rest := by
  have hread := Piece.readBefore (List.forall_mem_nil _) hscan hcomment
  have hnext := hread 0
  simp only [Piece.spelling, Piece.token, List.nil_append, Text.byteLength_nil, Nat.zero_add,
    String.ofList_toList] at hnext
  have hnotEnd : (Cursor.next ⟨0, text.toList ++ rest⟩).1.isEnd = false := by
    rw [hnext]
    simp [Lexeme.isEnd, hend]
  rw [ReadFirst, lexemes, Cursor.atStart, Cursor.lexemes_of_not_isEnd hnotEnd, hnext]

theorem ReadFirst.scanToken (h : ReadFirst kind text rest) (hend : kind ≠ .endOfInput) :
    scanToken (text.toList ++ rest) = .token kind text.toList rest := by
  have hnext : (Cursor.next ⟨0, text.toList ++ rest⟩).1
      = .ok ⟨kind, ⟨0, Text.byteLength text.toList⟩, text⟩ := by
    rw [ReadFirst, lexemes, Cursor.atStart, Cursor.lexemes] at h
    split at h
    all_goals exact (List.cons.inj h).1
  obtain ⟨word, back, hsplit, hword, -, -, hscan⟩ := Cursor.exists_scan_of_next hnext hend rfl
  obtain rfl : text.toList = word := by rw [show text = _ from hword, String.toList_ofList]
  obtain rfl := List.append_cancel_left hsplit
  exact hscan

/-! ## What follows a closing quote -/

theorem head?_of_scanToken_string {cs front : List Char}
    (h : scanToken ('\x27' :: cs) = .token kind front rest) : rest.head? ≠ some '\x27' := by
  cases scanned_of_scanToken h with
  | string _ hclose => exact head?_of_closeString hclose
  | quoted hstring _ _ => exact absurd rfl hstring
  | binary hc _ _ => exact absurd hc (by decide)
  | numeric hunquoted _ _ => exact absurd rfl hunquoted.string
  | word hunquoted _ _ _ _ => exact absurd rfl hunquoted.string
  | punctuation hunquoted _ _ _ _ => exact absurd rfl hunquoted.string

theorem head?_of_scanToken_name {quote : Char} (hquote : isNameQuote quote = true)
    {cs front : List Char} (h : scanToken (quote :: cs) = .token kind front rest) :
    rest.head? ≠ some quote := by
  have hnot : ¬isNameQuote quote = false := by simp [hquote]
  cases scanned_of_scanToken h with
  | string hc _ => exact absurd (hc ▸ hquote) (by decide)
  | quoted _ _ hclose => exact head?_of_closeQuoted hclose
  | binary hc _ _ =>
      have hmarks : ∀ d ∈ ['x', 'X', 'b', 'B'], isNameQuote d = false :=
        List.all_iff_forall_prop.mp (by decide)
      exact absurd (hmarks quote hc) hnot
  | numeric hunquoted _ _ => exact absurd hunquoted.name hnot
  | word hunquoted _ _ _ _ => exact absurd hunquoted.name hnot
  | punctuation hunquoted _ _ _ _ => exact absurd hunquoted.name hnot

/-! ## Strings and names -/

theorem readFirst_stringLiteral_iff (value : String) :
    ReadFirst (.string value) (stringLiteral value) rest ↔ rest.head? ≠ some '\x27' := by
  have htext : (stringLiteral value).toList ++ rest
      = '\x27' :: (escapeString value.toList ++ '\x27' :: rest) := by
    simp [stringLiteral]
  constructor
  · intro h
    have hscan := h.scanToken (by simp)
    rw [htext] at hscan
    exact head?_of_scanToken_string hscan
  · intro hrest
    refine readFirst_of_scanToken (by simp) (scanToken_stringLiteral value hrest) ?_
    rw [htext]
    simp [scanComment]

theorem readFirst_quoteName_iff {quote : Char} (hquote : isNameQuote quote = true) (name : String) :
    ReadFirst (.quoted name) (quoteName quote name) rest ↔ rest.head? ≠ some quote := by
  have htext : (quoteName quote name).toList ++ rest
      = quote :: (double quote name.toList ++ quote :: rest) := by
    simp [quoteName]
  constructor
  · intro h
    have hscan := h.scanToken (by simp)
    rw [htext] at hscan
    exact head?_of_scanToken_name hquote hscan
  · intro hrest
    refine readFirst_of_scanToken (by simp) (scanToken_quoteName hquote name hrest) ?_
    rw [htext]
    simp only [isNameQuote, Bool.or_eq_true, decide_eq_true_eq] at hquote
    rcases hquote with rfl | rfl <;> simp [scanComment]

/-- In front of any text, a string literal and the names of a dialect that quotes with a
backtick or a double quote are read first, with their whole text and as what was quoted,
exactly if the text does not begin with the same quote. -/
theorem quotings_readFirst_iff (rest : List Char) :
    (∀ value, ReadFirst (.string value) (stringLiteral value) rest ↔ rest.head? ≠ some '\x27') ∧
      ∀ dialect : Dialect, isNameQuote dialect.quote = true → ∀ name,
        ReadFirst (.quoted name) (dialect.quoteName name) rest
          ↔ rest.head? ≠ some dialect.quote :=
  ⟨readFirst_stringLiteral_iff, fun _ => readFirst_quoteName_iff⟩

/-- Escapes at both ends, and other quotes behind. -/
theorem quotings_readFirst_iff_escapes :
    ReadFirst (.string "\\ it's \\") (stringLiteral "\\ it's \\") "`\"".toList ∧
      ReadFirst (.quoted "`we`") (Dialect.mysql.quoteName "`we`") "'\"".toList ∧
      ReadFirst (.quoted "\"\"") (Dialect.generic.quoteName "\"\"") "`'".toList := by
  obtain ⟨hstring, -⟩ := quotings_readFirst_iff "`\"".toList
  obtain ⟨-, hmysql⟩ := quotings_readFirst_iff "'\"".toList
  obtain ⟨-, hgeneric⟩ := quotings_readFirst_iff "`'".toList
  exact ⟨(hstring _).mpr (by decide), (hmysql Dialect.mysql (by decide) _).mpr (by decide),
    (hgeneric Dialect.generic (by decide) _).mpr (by decide)⟩

end SchemaDelta.Sql
