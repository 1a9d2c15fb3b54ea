import SchemaDelta.Proofs.Build.Source
import SchemaDelta.Proofs.Catalog.Default
import SchemaDelta.Proofs.Diff.Alike
import SchemaDelta.Proofs.Parsing.ColumnType

/-!
# Columns as catalogs report them

The row of a column gives its type as the dialect writes it, its options one by one, and
its default as a text.  What is built from the row is alike to the column.
-/

namespace SchemaDelta

open Sql Sql.Parser

/-! ## Rows -/

/-- What a catalog says besides: whether values are counted up, and whether the default is
an expression in parentheses. -/
def Catalog.extraText (counted generated : Bool) : String :=
  " ".intercalate
    ((if counted then ["auto_increment"] else [])
      ++ if generated then ["DEFAULT_GENERATED"] else [])

theorem Catalog.hasWord_extraText : ∀ counted generated : Bool,
    hasWord "auto_increment" (extraText counted generated) = counted
      ∧ hasWord "DEFAULT_GENERATED" (extraText counted generated) = generated := by
  decide +kernel

namespace Column

/-- Whether the text of the default is in parentheses. -/
def hasGeneratedDefault (column : Column) : Bool :=
  column.default.any fun value => value.sql.toList.head? = some '('

def row (table : String) (column : Column) : ColumnRow where
  table
  name := column.name
  columnType := Dialect.mysql.columnType column
  nullable := column.nullable
  default := column.default.map (·.sql)
  extra := Catalog.extraText column.autoIncrement column.hasGeneratedDefault
  comment := column.comment.getD ""

/-! ## Types -/

/-- The options that are written with the type. -/
def typeOptions (column : Column) : List ColumnOption :=
  if column.unsigned then [.unsigned] else []

def typeOptionPieces (column : Column) : List Piece :=
  if column.unsigned then [keywordPiece [' '] .UNSIGNED] else []

theorem accepts_typeOptions (column : Column) :
    Accepts columnOptions column.typeOptionPieces column.typeOptions (· = .endOfInput) := by
  have hunsigned : Accepts (keywordOption .UNSIGNED) [keywordPiece [' '] .UNSIGNED]
      (some .unsigned) anything := (accepts_advance _).cons (reads_pure rfl)
  have hends : ∀ kind : TokenKind,
      kind = .endOfInput → anything kind ∧ endsOptions kind = true := by
    rintro _ rfl
    exact ⟨trivial, rfl⟩
  unfold typeOptionPieces typeOptions
  cases column.unsigned with
  | true =>
      have hitem : ∀ entry ∈ [([keywordPiece [' '] .UNSIGNED], ColumnOption.unsigned)],
          ∃ keyword pieces, entry.1 = keywordPiece [' '] keyword :: pieces
            ∧ Accepts (keywordOption keyword) entry.1 (some entry.2) anything := by
        rintro _ (_ | ⟨_, ⟨⟩⟩)
        exact ⟨.UNSIGNED, [], rfl, hunsigned⟩
      exact accepts_columnOptions (fun _ => trivial) hends hitem
  | false =>
      have hnone := accepts_columnOptions (fun _ => trivial) hends (List.forall_mem_nil _)
      exact hnone

theorem exists_columnTypePieces {column : Column} (h : column.Spelled) :
    ∃ pieces, spelling pieces = (Dialect.mysql.columnType column).toList ∧ Legible pieces
      ∧ Accepts Parser.columnType pieces (column.writtenType, column.typeOptions)
        (· = .endOfInput) := by
  have hoptions : Legible column.typeOptionPieces ∧ StartWithKeyword column.typeOptionPieces
      ∧ spelling column.typeOptionPieces
        = (if column.unsigned then " UNSIGNED" else "").toList := by
    unfold typeOptionPieces
    cases column.unsigned with
    | true => exact ⟨legible_keywordPieces [.UNSIGNED], startWithKeyword_cons _ _, rfl⟩
    | false => exact ⟨legible_nil, by simp [StartWithKeyword], rfl⟩
  obtain ⟨typePieces, htype, hlegible, haccepts⟩ := exists_dataTypePieces (List.forall_mem_nil _)
    h.typeName h.typeArgs hoptions.1 hoptions.2.1.delimited
  refine ⟨typePieces ++ column.typeOptionPieces, ?_, hlegible, ?_⟩
  · change _ = (Dialect.mysqlColumnType column).toList
    rw [spelling_append, htype, hoptions.2.2, Dialect.mysqlColumnType, mysqlBaseType_eq,
      String.toList_append]
    rfl
  · have hend : Accepts (atKind .endOfInput) [] true (· = .endOfInput) :=
      accepts_atKind_self .endOfInput
    refine haccepts.bind ((accepts_typeOptions column).last
      (hend.last (reads_pure rfl) fun _ hkind => hkind) fun _ hkind => hkind) ?_
    rintro _ rfl
    refine hoptions.2.1.firstKind (fun keyword => ?_) ?_ <;>
      exact ⟨by simp [notIdentifier], by simp⟩

/-- The type that the dialect writes is read back from a catalog. -/
theorem columnType_eq_ok {column : Column} (h : column.Spelled) :
    Sql.columnType (Dialect.mysql.columnType column)
      = .ok (column.writtenType, column.typeOptions) := by
  obtain ⟨pieces, hspelling, hlegible, haccepts⟩ := exists_columnTypePieces h
  have hread := Sql.columnType_spelling hlegible haccepts
  rwa [hspelling, String.ofList_toList] at hread

/-! ## What is built of a row -/

/-- The default that the row of a column stands for. -/
def readDefault (table : String) (column : Column) : Option DefaultValue :=
  (column.row table).default.bind fun text =>
    Build.defaultOf? (Catalog.defaultLiteral text (column.row table).extra)

/-- The options of a row make a column what it is, up to the sort of its default. -/
theorem foldl_rowOptions (table : String) {column : Column} (hcomment : column.comment ≠ some "") :
    (column.typeOptions ++ Catalog.rowOptions (column.row table)).foldl
        Build.withOption column.typed
      = { column with default := column.readDefault table } := by
  have hauto := (Catalog.hasWord_extraText column.autoIncrement column.hasGeneratedDefault).1
  obtain ⟨name, kind, typeName, length, precision, scale, nullable, unsigned, autoIncrement,
    default, comment, fixed, enumValues⟩ := column
  have htext : ∀ text, comment = some text → text ≠ "" := by
    rintro text rfl rfl
    exact hcomment rfl
  cases unsigned <;> cases nullable <;> cases autoIncrement <;> cases default <;> cases comment <;>
    simp_all [typeOptions, Catalog.rowOptions, row, readDefault, typed, Build.withOption,
      commentOf_of_ne]

theorem text_readDefault (table : String) {column : Column}
    (hdefault : ∀ value ∈ column.default, value.Readable) :
    (column.readDefault table).map (·.text) = column.default.map (·.text) := by
  unfold readDefault
  cases hvalue : column.default with
  | none => simp [row, hvalue]
  | some value =>
      have hmarks : Catalog.Marks (column.row table).extra value.sql := by
        have hword := (Catalog.hasWord_extraText column.autoIncrement column.hasGeneratedDefault).2
        rw [Catalog.Marks, row, hword, hasGeneratedDefault, hvalue]
        simp
      have htext := Catalog.text_defaultOf? (hdefault value hvalue).reportable hmarks
      simp only [row, hvalue, Option.map_some, Option.bind_some] at htext ⊢
      exact htext

/-- What is built of the row of a column has its name and is alike to it. -/
theorem exists_columnDef_row (table : String) {column : Column} (h : column.Restorable) :
    ∃ written, Catalog.columnDef (column.row table) = .ok written
      ∧ Build.column .mysql written = { column with default := column.readDefault table }
      ∧ Column.Same (Build.column .mysql written) column := by
  refine ⟨⟨column.name, column.writtenType,
    column.typeOptions ++ Catalog.rowOptions (column.row table), .point 0⟩, ?_, ?_⟩
  · simp only [Catalog.columnDef, row, columnType_eq_ok h.toSpelled]
  · have hbuilt := foldl_rowOptions table h.comment
    rw [← h.typed] at hbuilt
    rw [Build.column_eq_foldl, hbuilt]
    refine ⟨rfl, same_iff_alike.mpr ?_⟩
    exact ⟨rfl, rfl, rfl, rfl, rfl, rfl, rfl, rfl, text_readDefault table h.default, rfl, rfl, rfl⟩

end Column

end SchemaDelta
