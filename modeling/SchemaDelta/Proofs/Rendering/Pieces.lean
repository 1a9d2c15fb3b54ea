import SchemaDelta.Proofs.Parsing.Accepts
import SchemaDelta.Proofs.Rendering.Token

/-!
# Pieces as a dialect writes them

What the MySQL dialect writes is spelled by pieces that are legible one behind the
other.
-/

namespace SchemaDelta.Sql

open SchemaDelta.Sql.Parser (commaPieces commaPiece)

def keywordPiece (gap : List Char) (keyword : Keyword) : Piece :=
  ⟨gap, .keyword keyword, keyword.spelling.toList⟩

def namePiece (gap : List Char) (name : String) : Piece :=
  ⟨gap, .quoted name, (quoteName Dialect.mysqlQuote name).toList⟩

def stringPiece (gap : List Char) (value : String) : Piece :=
  ⟨gap, .string value, (stringLiteral value).toList⟩

def numberPiece (gap : List Char) (n : Nat) : Piece :=
  ⟨gap, .number (toString n), (toString n).toList⟩

def openPiece (gap : List Char) : Piece :=
  ⟨gap, .leftParen, ['(']⟩

def closePiece (gap : List Char) : Piece :=
  ⟨gap, .rightParen, [')']⟩

theorem isBlank_of_mem_space : ∀ c ∈ [' '], Text.isBlank c = true :=
  List.all_iff_forall_prop.mp (by decide)

section

variable {gap : List Char} {pieces : List Piece}

/-- A piece that begins with a delimiter delimits what stands in front of it. -/
theorem delimited_of_head? {piece : Piece} {c : Char} (h : piece.spelling.head? = some c)
    (hc : c ∈ delimiters) : Delimited (spelling (piece :: pieces)) := by
  obtain ⟨rest, hspelling⟩ := List.head?_eq_some_iff.mp h
  rw [spelling_cons, hspelling]
  exact delimited_cons.mpr hc

theorem legible_keywordPiece (keyword : Keyword) (hgap : ∀ c ∈ gap, Text.isBlank c = true)
    (hnext : Delimited (spelling pieces)) (h : Legible pieces) :
    Legible (keywordPiece gap keyword :: pieces) :=
  h.cons hgap (whole_keyword keyword) (by simp) hnext

theorem legible_namePiece (name : String) (hgap : ∀ c ∈ gap, Text.isBlank c = true)
    (hnext : Delimited (spelling pieces)) (h : Legible pieces) :
    Legible (namePiece gap name :: pieces) :=
  h.cons hgap (whole_quoteName (by decide) name) (by simp) hnext

theorem legible_stringPiece (value : String) (hgap : ∀ c ∈ gap, Text.isBlank c = true)
    (hnext : Delimited (spelling pieces)) (h : Legible pieces) :
    Legible (stringPiece gap value :: pieces) :=
  h.cons hgap (whole_stringLiteral value) (by simp) hnext

theorem legible_numberPiece (n : Nat) (hgap : ∀ c ∈ gap, Text.isBlank c = true)
    (hnext : Delimited (spelling pieces)) (h : Legible pieces) :
    Legible (numberPiece gap n :: pieces) :=
  h.cons hgap (whole_toString n) (by simp) hnext

end

/-! ## Lists with commas -/

theorem spelling_commaPieces (item : List Piece) (items : List (List Piece)) :
    spelling (commaPieces (item :: items))
      = spelling item ++ items.flatMap fun item => ',' :: spelling item := by
  induction items generalizing item with
  | nil => simp [commaPieces]
  | cons next items ih =>
      simp [commaPieces, ih, commaPiece, Piece.spelling]

theorem legible_commaPieces {items : List (List Piece)} (h : ∀ item ∈ items, Legible item) :
    Legible (commaPieces items) := by
  induction items with
  | nil => exact legible_nil
  | cons item items ih =>
      have hitem := h item (by simp)
      cases items with
      | nil => exact hitem
      | cons next items =>
          have hrest := ih fun item hmem => h item (by simp [hmem])
          exact hitem.append hrest.comma (delimited_of_head? rfl (by decide))

/-- A text between separators, the first one left out. -/
theorem toList_intercalate_cons (sep text : String) (texts : List String) :
    (sep.intercalate (text :: texts)).toList
      = text.toList ++ texts.flatMap fun text => sep.toList ++ text.toList := by
  induction texts generalizing text with
  | nil => simp
  | cons next texts ih => simp [ih]

/-! ## Column names in parentheses -/

def nameItems : List String → List (List Piece)
  | [] => []
  | name :: names => [namePiece [] name] :: names.map fun name => [namePiece [' '] name]

def namesPieces (gap : List Char) (names : List String) : List Piece :=
  openPiece gap :: (commaPieces (nameItems names) ++ [closePiece []])

theorem spelling_nameItems (names : List String) :
    spelling (commaPieces (nameItems names)) = (Dialect.mysql.quoteNames names).toList := by
  cases names with
  | nil => rfl
  | cons name names =>
      simp only [nameItems, spelling_commaPieces, Dialect.quoteNames, List.map_cons,
        toList_intercalate_cons, List.flatMap_map]
      simp [namePiece, Piece.spelling, Dialect.quoteName, Dialect.mysql]

theorem spelling_namesPieces (gap : List Char) (names : List String) :
    spelling (namesPieces gap names)
      = gap ++ '(' :: (Dialect.mysql.quoteNames names).toList ++ [')'] := by
  simp [namesPieces, openPiece, closePiece, Piece.spelling, spelling_nameItems]

theorem legible_namesPieces {gap : List Char} (hgap : ∀ c ∈ gap, Text.isBlank c = true)
    (names : List String) : Legible (namesPieces gap names) := by
  have hitems : ∀ item ∈ nameItems names, Legible item := by
    cases names with
    | nil => simp [nameItems]
    | cons name names =>
        intro item hitem
        simp only [nameItems, List.mem_cons, List.mem_map] at hitem
        rcases hitem with rfl | ⟨name, -, rfl⟩
        · exact legible_namePiece _ (by simp) (by simp) legible_nil
        · exact legible_namePiece _ isBlank_of_mem_space (by simp) legible_nil
  have hclose : Legible [closePiece []] := legible_nil.rightParen (by simp)
  have hbody := (legible_commaPieces hitems).append hclose (delimited_of_head? rfl (by decide))
  exact hbody.leftParen hgap

end SchemaDelta.Sql
