import SchemaDelta.Proofs.Parsing.DataType
import SchemaDelta.Proofs.Parsing.Default
import SchemaDelta.Proofs.Parsing.Keys

/-!
# Columns are read back

A column is written as its name, the type that its kind and canonical name stand
for, and the options that it needs.  The definition is accepted with exactly this
type and these options.
-/

namespace SchemaDelta

open Sql Sql.Parser

/-! ## What columns are written as -/

/-- The type that a column is written with. -/
def Column.writtenType (column : Column) : DataType :=
  match column.kind with
  | .integer =>
      ⟨if column.typeName = "integer" then "INT" else upperCase column.typeName, .none⟩
  | .boolean => ⟨"TINYINT", .length 1⟩
  | .decimal => ⟨"DECIMAL", .precisionScale (column.precision.getD 10) (column.scale.getD 0)⟩
  | .float => ⟨"DOUBLE", .none⟩
  | .string =>
      ⟨if column.fixed then "CHAR" else "VARCHAR",
        .length (column.length.getD Dialect.defaultStringLength)⟩
  | .text => ⟨"TEXT", .none⟩
  | .binary =>
      match column.length with
      | some length =>
          if column.typeName = "binary" then
            ⟨if column.fixed then "BINARY" else "VARBINARY", .length length⟩
          else
            ⟨"BLOB", .none⟩
      | none => ⟨"BLOB", .none⟩
  | .datetime => ⟨upperCase column.typeName, .none⟩
  | .enumeration => ⟨upperCase column.typeName, .values column.enumValues⟩
  | .geometry => ⟨"GEOMETRY", .none⟩
  | .json => ⟨"JSON", .none⟩
  | .other => ⟨upperCase column.typeName, Dialect.otherTypeArgs column⟩

/-- The texts and the meanings of the options that a column is written with, when
`literal` is what its default is read as. -/
def Column.optionEntries (column : Column) (literal : Literal) : List (String × ColumnOption) :=
  (if column.unsigned then [(" UNSIGNED", .unsigned)] else [])
    ++ (if column.nullable then [] else [(" NOT NULL", .notNull)])
    ++ (column.default.map fun value => (" DEFAULT " ++ value.sql, .default literal)).toList
    ++ (if column.autoIncrement then [(" AUTO_INCREMENT", .autoIncrement)] else [])
    ++ (column.comment.map fun comment =>
        (" COMMENT " ++ stringLiteral comment, .comment comment)).toList

/-- A definition says what a column is. -/
structure Column.WrittenAs (column : Column) (written : ColumnDef) : Prop where
  name : written.name = column.name
  dataType : written.dataType = column.writtenType
  options : ∃ literal, (∀ value ∈ column.default, Build.defaultOf? literal = some value) ∧
    written.options = (column.optionEntries literal).map (·.2)

theorem mysqlBaseType_eq (column : Column) :
    Dialect.mysqlBaseType column = column.writtenType.sql := by
  unfold Dialect.mysqlBaseType Column.writtenType
  cases column.kind
  case binary =>
    cases hlength : column.length with
    | none => simp [Dialect.mysqlBinaryType, hlength, DataType.sql, TypeArgs.sql]
    | some length =>
        by_cases htype : column.typeName = "binary"
        · simp [Dialect.mysqlBinaryType, hlength, htype, DataType.sql]
        · simp [Dialect.mysqlBinaryType, hlength, htype, DataType.sql, TypeArgs.sql]
  case boolean => rfl
  all_goals simp [DataType.sql, TypeArgs.sql]

theorem toList_columnDefinition (column : Column) (literal : Literal) :
    (Dialect.mysql.columnDefinition column).toList
      = (quoteName Dialect.mysqlQuote column.name).toList
        ++ (' ' :: column.writtenType.sql.toList
          ++ (column.optionEntries literal).flatMap (·.1.toList)) := by
  change (columnSql Dialect.mysqlQuote (Dialect.mysqlColumnType column) column).toList = _
  unfold columnSql Dialect.mysqlColumnType Column.optionEntries
  rw [mysqlBaseType_eq]
  cases column.unsigned <;> cases column.nullable <;> cases column.default <;>
    cases column.autoIncrement <;> cases column.comment <;>
    simp [String.toList_append]

/-! ## Options -/

/-- The text begins with a keyword, and is read as the option. -/
def WritesOption (text : String) (option : ColumnOption) : Prop :=
  ∃ keyword pieces, spelling (keywordPiece [' '] keyword :: pieces) = text.toList
    ∧ Legible (keywordPiece [' '] keyword :: pieces)
    ∧ Accepts (keywordOption keyword) (keywordPiece [' '] keyword :: pieces) (some option)
      afterOption

theorem writesOption_unsigned : WritesOption " UNSIGNED" .unsigned := by
  refine ⟨.UNSIGNED, [], rfl, legible_keywordPieces [.UNSIGNED], ?_⟩
  exact (accepts_advance _).cons (reads_pure rfl)

theorem writesOption_notNull : WritesOption " NOT NULL" .notNull := by
  refine ⟨.NOT, [keywordPiece [' '] .NULL], rfl, legible_keywordPieces [.NOT, .NULL], ?_⟩
  exact (accepts_advance _).cons (Accepts.cons (accepts_expectKeyword rfl) (reads_pure rfl))

theorem writesOption_autoIncrement : WritesOption " AUTO_INCREMENT" .autoIncrement := by
  refine ⟨.AUTO_INCREMENT, [], rfl, legible_keywordPieces [.AUTO_INCREMENT], ?_⟩
  exact (accepts_advance _).cons (reads_pure rfl)

theorem writesOption_comment (comment : String) :
    WritesOption (" COMMENT " ++ stringLiteral comment) (.comment comment) := by
  refine ⟨.COMMENT, [stringPiece [' '] comment], ?_, ?_, ?_⟩
  · simp [keywordPiece, stringPiece, Piece.spelling, Keyword.spelling]
  · refine legible_keywordPiece _ isBlank_of_mem_space (delimited_of_head? rfl (by decide)) ?_
    exact legible_stringPiece comment isBlank_of_mem_space (by simp) legible_nil
  · refine (accepts_advance _).cons ?_
    exact Accepts.map (fun text => some (ColumnOption.comment text)) (accepts_string rfl) |>.mono
      fun _ _ => trivial

theorem writesOption_default {value : DefaultValue} (h : value.Readable) :
    ∃ literal, Build.defaultOf? literal = some value
      ∧ WritesOption (" DEFAULT " ++ value.sql) (.default literal) := by
  obtain ⟨pieces, literal, hspelling, hlegible, haccepts, hvalue⟩ := h
  refine ⟨literal, hvalue, .DEFAULT, pieces, ?_, ?_, ?_⟩
  · rw [spelling_cons, hspelling]
    simp [keywordPiece, Piece.spelling, Keyword.spelling]
  · refine legible_keywordPiece _ isBlank_of_mem_space ?_ hlegible
    rw [hspelling]
    simp [delimiters]
  · refine (accepts_advance _).cons ?_
    exact haccepts.map fun literal => some (ColumnOption.default literal)

/-- Every option of a column is written so that it is read again. -/
theorem exists_writesOptions (column : Column) (h : ∀ value ∈ column.default, value.Readable) :
    ∃ literal, (∀ value ∈ column.default, Build.defaultOf? literal = some value) ∧
      ∀ entry ∈ column.optionEntries literal, WritesOption entry.1 entry.2 := by
  have hdefault : ∃ literal, ∀ value ∈ column.default, Build.defaultOf? literal = some value
      ∧ WritesOption (" DEFAULT " ++ value.sql) (.default literal) := by
    cases hvalue : column.default with
    | none => exact ⟨.null, by simp⟩
    | some value =>
        obtain ⟨literal, hliteral⟩ := writesOption_default (h value hvalue)
        exact ⟨literal, by simpa using hliteral⟩
  obtain ⟨literal, hliteral⟩ := hdefault
  refine ⟨literal, fun value hvalue => (hliteral value hvalue).1, fun entry hentry => ?_⟩
  simp only [Column.optionEntries, List.mem_append, Option.mem_toList, Option.map_eq_some_iff]
    at hentry
  rcases hentry with (((hentry | hentry) | ⟨value, hvalue, rfl⟩) | hentry) | ⟨comment, -, rfl⟩
  · obtain ⟨-, rfl⟩ : column.unsigned = true ∧ entry = (" UNSIGNED", .unsigned) := by
      simpa using hentry
    exact writesOption_unsigned
  · obtain ⟨-, rfl⟩ : column.nullable = false ∧ entry = (" NOT NULL", .notNull) := by
      simpa using hentry
    exact writesOption_notNull
  · exact (hliteral value hvalue).2
  · obtain ⟨-, rfl⟩ :
        column.autoIncrement = true ∧ entry = (" AUTO_INCREMENT", .autoIncrement) := by
      simpa using hentry
    exact writesOption_autoIncrement
  · exact writesOption_comment comment

/-- No pieces, or a keyword first. -/
def StartWithKeyword (pieces : List Piece) : Prop :=
  ∀ piece ∈ pieces.head?, ∃ keyword, piece = keywordPiece [' '] keyword

theorem startWithKeyword_cons (keyword : Keyword) (pieces : List Piece) :
    StartWithKeyword (keywordPiece [' '] keyword :: pieces) := by
  simp [StartWithKeyword]

theorem StartWithKeyword.delimited {pieces : List Piece} (h : StartWithKeyword pieces) :
    Delimited (spelling pieces) := by
  cases pieces with
  | nil => simp
  | cons piece pieces =>
      obtain ⟨keyword, rfl⟩ := h piece rfl
      exact delimited_of_head? rfl (by decide)

theorem StartWithKeyword.firstKind {pieces : List Piece} {follow : TokenKind → Prop}
    {kind : TokenKind} (h : StartWithKeyword pieces)
    (hkeyword : ∀ keyword, follow (.keyword keyword)) (hkind : follow kind) :
    follow (Sql.firstKind pieces kind) := by
  cases pieces with
  | nil => exact hkind
  | cons piece pieces =>
      obtain ⟨keyword, rfl⟩ := h piece rfl
      exact hkeyword keyword

/-- Options are read up to what ends them, when each of them is read in front of
keywords and of what ends them. -/
theorem accepts_columnOptions {middle follow : TokenKind → Prop}
    (hkeyword : ∀ keyword, middle (.keyword keyword))
    (hfollow : ∀ kind, follow kind → middle kind ∧ endsOptions kind = true)
    {items : List (List Piece × ColumnOption)}
    (h : ∀ entry ∈ items, ∃ keyword pieces, entry.1 = keywordPiece [' '] keyword :: pieces
      ∧ Accepts (keywordOption keyword) entry.1 (some entry.2) middle) :
    Accepts columnOptions (items.flatMap (·.1)) (items.map (·.2)) follow := by
  let step : Parser (Option ColumnOption × Bool) := do
    if endsOptions (← current).kind then
      return (none, false)
    else
      return (← columnOption, true)
  have hitem : ∀ entry ∈ items, Accepts step entry.1 (some entry.2, true) middle := by
    intro entry hentry
    obtain ⟨keyword, pieces, hpieces, haccepts⟩ := h entry hentry
    have hoption : Accepts columnOption entry.1 (some entry.2) middle := by
      rw [hpieces] at haccepts ⊢
      exact reads_current_bind fun offset => haccepts
    rw [hpieces] at hoption ⊢
    exact reads_current_bind fun offset => hoption.map fun option => (option, true)
  have hfirst : ∀ entry ∈ items, entry.1 ≠ [] ∧ ∀ kind, middle (firstKind entry.1 kind) := by
    intro entry hentry
    obtain ⟨keyword, pieces, hpieces, -⟩ := h entry hentry
    rw [hpieces]
    exact ⟨by simp, fun kind => hkeyword keyword⟩
  have hend : Accepts step [] (none, false) follow := by
    refine accepts_of_parse fun input offset _ hkind => ⟨input.lastStop, ?_⟩
    have hends : endsOptions input.current.kind = true := (hfollow _ hkind).2
    simp only [step, parse_bind, parse_current, tokensAt_nil, List.nil_append, hends, if_true,
      parse_pure]
  have hloop := accepts_repeatWhile_none hitem hfirst hend fun kind hkind => (hfollow kind hkind).1
  have hvalues : (items.map (fun entry : List Piece × ColumnOption => some entry.2)
      ++ [none]).filterMap id
      = items.map (·.2) := by
    rw [List.filterMap_append, List.filterMap_map]
    exact (List.append_nil _).trans (congrFun List.filterMap_eq_map items)
  rw [← hvalues]
  exact hloop.map (List.filterMap id)

/-- Options are written one behind the other. -/
theorem exists_optionItems {entries : List (String × ColumnOption)}
    (h : ∀ entry ∈ entries, WritesOption entry.1 entry.2) :
    ∃ items : List (List Piece × ColumnOption),
      items.map (·.2) = entries.map (·.2)
        ∧ spelling (items.flatMap (·.1)) = entries.flatMap (·.1.toList)
        ∧ Legible (items.flatMap (·.1)) ∧ StartWithKeyword (items.flatMap (·.1))
        ∧ ∀ entry ∈ items, ∃ keyword pieces, entry.1 = keywordPiece [' '] keyword :: pieces
          ∧ Accepts (keywordOption keyword) entry.1 (some entry.2) afterOption := by
  induction entries with
  | nil => exact ⟨[], rfl, rfl, legible_nil, by simp [StartWithKeyword], by simp⟩
  | cons entry entries ih =>
      obtain ⟨keyword, pieces, hspelling, hlegible, haccepts⟩ := h entry (by simp)
      obtain ⟨items, hoptions, hrest, hitems, hstart, hreads⟩ :=
        ih fun entry hentry => h entry (by simp [hentry])
      refine ⟨(keywordPiece [' '] keyword :: pieces, entry.2) :: items, by simp [hoptions], ?_,
        hlegible.append hitems hstart.delimited, startWithKeyword_cons _ _, ?_⟩
      · rw [List.flatMap_cons, spelling_append, hspelling, hrest, List.flatMap_cons]
      · rintro other (_ | ⟨_, hother⟩)
        · exact ⟨keyword, pieces, rfl, haccepts⟩
        · exact hreads other hother

/-! ## Definitions -/

/-- A column is written as a definition of it. -/
theorem exists_columnPieces {gap : List Char} (hgap : ∀ c ∈ gap, Text.isBlank c = true)
    {column : Column} (hname : IsTypeName column.writtenType.name)
    (hfits : column.writtenType.args.Fits) (hdefault : ∀ value ∈ column.default, value.Readable) :
    ∃ pieces, spelling pieces = gap ++ (Dialect.mysql.columnDefinition column).toList
      ∧ Legible pieces
      ∧ Reads definition pieces
          (fun parsed => ∃ written, parsed = some (.column written) ∧ column.WrittenAs written)
          endsDefinition := by
  obtain ⟨literal, hliteral, hwrites⟩ := exists_writesOptions column hdefault
  obtain ⟨items, hoptions, hspelling, hlegible, hstart, hreads⟩ := exists_optionItems hwrites
  have hends : Accepts columnOptions (items.flatMap (·.1)) (items.map (·.2)) endsDefinition := by
    refine accepts_columnOptions (fun keyword => .inl ⟨keyword, rfl⟩) ?_ hreads
    rintro kind (rfl | rfl)
    · exact ⟨.inr (.inl rfl), rfl⟩
    · exact ⟨.inr (.inr rfl), rfl⟩
  obtain ⟨typePieces, htypeSpelling, htypeLegible, htype⟩ :=
    exists_dataTypePieces isBlank_of_mem_space hname hfits hlegible hstart.delimited
  refine ⟨namePiece gap column.name :: (typePieces ++ items.flatMap (·.1)), ?_, ?_, ?_⟩
  · rw [spelling_cons, spelling_append, htypeSpelling, hspelling,
      toList_columnDefinition column literal]
    simp [namePiece, Piece.spelling]
  · refine legible_namePiece _ hgap ?_ htypeLegible
    rw [spelling_append, htypeSpelling]
    simp [delimiters]
  · have hcolumn : Reads columnDef
        (namePiece gap column.name :: (typePieces ++ items.flatMap (·.1))) column.WrittenAs
        endsDefinition := by
      refine reads_current_bind fun offset => ?_
      refine Accepts.cons (accepts_name rfl) ?_
      refine htype.bind (hends.last (reads_get_bind fun input => ?_) fun _ h => h) fun kind hkind =>
        hstart.firstKind ?_ ?_
      · exact reads_pure ⟨rfl, rfl, literal, hliteral, hoptions⟩
      · exact fun keyword => ⟨by simp [notIdentifier], by simp⟩
      · rcases hkind with rfl | rfl <;> exact ⟨by simp [notIdentifier], by simp⟩
    refine accepts_constraintName?_none.peek ?_ fun kind _ => by simp [namePiece]
    refine reads_current_bind fun offset => ?_
    simp only [namePiece, Piece.kind_token]
    exact hcolumn.map _ fun written hwritten => ⟨written, rfl, hwritten⟩

end SchemaDelta
