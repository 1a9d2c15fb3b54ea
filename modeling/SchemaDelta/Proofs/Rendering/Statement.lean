import SchemaDelta.Proofs.Build.Type
import SchemaDelta.Proofs.Script.Tokens

/-!
# Statements are legible

Every statement that the MySQL dialect writes is a row of tokens with blanks in
between, and none of them is a semicolon.  What a name, a comment or a default holds
does not matter.  The types of the columns have to be ones that can be read.
-/

namespace SchemaDelta

open Sql

namespace Sql

/-- Behind a space the text is spelled by legible pieces. -/
def Spaced (text : List Char) : Prop :=
  ∃ pieces, spelling pieces = ' ' :: text ∧ Legible pieces

/-- A text that is some token at least, and legible. -/
def LegibleStatement (text : String) : Prop :=
  ∃ kinds, kinds ≠ [] ∧ LegibleText text.toList kinds

namespace Spaced

variable {kind : TokenKind} {text rest : List Char}

theorem of_whole (hwhole : Whole kind text) (hkind : kind ≠ .semicolon ∧ kind ≠ .endOfInput) :
    Spaced text := by
  refine ⟨[⟨[' '], kind, text⟩], by simp [Piece.spelling], ?_⟩
  exact legible_nil.cons isBlank_of_mem_space hwhole hkind (by simp)

theorem cons (h : Spaced rest) (hwhole : Whole kind text)
    (hkind : kind ≠ .semicolon ∧ kind ≠ .endOfInput) : Spaced (text ++ ' ' :: rest) := by
  obtain ⟨pieces, hspelling, hlegible⟩ := h
  have hnext : Delimited (spelling pieces) := by simp [hspelling, delimiters]
  refine ⟨⟨[' '], kind, text⟩ :: pieces, by simp [Piece.spelling, hspelling], ?_⟩
  exact hlegible.cons isBlank_of_mem_space hwhole hkind hnext

theorem of_keyword (keyword : Keyword) : Spaced keyword.spelling.toList :=
  of_whole (whole_keyword keyword) (by simp)

theorem keyword (h : Spaced rest) (keyword : Keyword) :
    Spaced (keyword.spelling.toList ++ ' ' :: rest) :=
  h.cons (whole_keyword keyword) (by simp)

theorem of_name (name : String) : Spaced (quoteName Dialect.mysqlQuote name).toList :=
  of_whole (whole_quoteName (by decide) name) (by simp)

theorem name (h : Spaced rest) (name : String) :
    Spaced ((quoteName Dialect.mysqlQuote name).toList ++ ' ' :: rest) :=
  h.cons (whole_quoteName (by decide) name) (by simp)

theorem kind_of_isWordKind (h : isWordKind kind = true) :
    kind ≠ .semicolon ∧ kind ≠ .endOfInput := by
  constructor <;> rintro rfl <;> cases h

theorem word (h : Spaced rest) (hword : IsWord text) : Spaced (text ++ ' ' :: rest) :=
  h.cons hword (kind_of_isWordKind (isWordKind_wordKind text))

/-- A statement begins with some token, and goes on behind a space. -/
theorem legibleStatement {statement : String} (h : Spaced rest) (hwhole : Whole kind text)
    (hkind : kind ≠ .semicolon ∧ kind ≠ .endOfInput)
    (htext : statement.toList = text ++ ' ' :: rest) : LegibleStatement statement := by
  obtain ⟨pieces, hspelling, hlegible⟩ := h
  have hnext : Delimited (spelling pieces) := by simp [hspelling, delimiters]
  refine ⟨kind :: pieces.map Piece.kind, by simp, fun gap hgap => ?_⟩
  refine ⟨⟨gap, kind, text⟩ :: pieces, ?_, hlegible.cons hgap hwhole hkind hnext, rfl⟩
  simp [Piece.spelling, hspelling, htext]

end Spaced

end Sql

/-! ## Words of the dialect -/

/-- The words of statements that are no keywords of table definitions. -/
def Dialect.mysqlVerbs : List String :=
  ["ALTER", "ADD", "CHANGE", "DROP", "RENAME", "COLUMN", "TO"]

theorem isWord_of_mem_mysqlVerbs : ∀ verb ∈ Dialect.mysqlVerbs, IsWord verb.toList := by
  unfold IsWord Whole
  decide +kernel

/-! ## Definitions -/

/-- The column has a type and a default that can be read. -/
structure Column.Writable (column : Column) : Prop where
  typeName : IsTypeName column.writtenType.name
  typeArgs : column.writtenType.args.Fits
  default : ∀ value ∈ column.default, value.Readable

theorem Column.Writable.exists_pieces {column : Column} (h : column.Writable) {gap : List Char}
    (hgap : ∀ c ∈ gap, Text.isBlank c = true) :
    ∃ pieces, spelling pieces = gap ++ (Dialect.mysql.columnDefinition column).toList
      ∧ Legible pieces := by
  obtain ⟨pieces, hspelling, hlegible, -⟩ :=
    exists_columnPieces hgap h.typeName h.typeArgs h.default
  exact ⟨pieces, hspelling, hlegible⟩

theorem Column.Writable.spaced {column : Column} (h : column.Writable) :
    Spaced (Dialect.mysql.columnDefinition column).toList :=
  h.exists_pieces isBlank_of_mem_space

theorem spaced_indexDefinition (index : Index) :
    Spaced (Dialect.mysql.indexDefinition index).toList :=
  ⟨indexPieces [' '] index, spelling_indexPieces _ _,
    legible_indexPieces isBlank_of_mem_space index⟩

theorem spaced_foreignKeyDefinition (key : ForeignKey) :
    Spaced (Dialect.mysql.foreignKeyDefinition key).toList :=
  ⟨foreignKeyPieces [' '] key, spelling_foreignKeyPieces _ _,
    legible_foreignKeyPieces isBlank_of_mem_space key⟩

/-! ## New tables -/

/-- The lines of a new table, without their indentation. -/
def Dialect.mysqlLines (table : Table) : List String :=
  table.columns.map mysql.columnDefinition ++ table.allIndexes.map mysql.indexDefinition
    ++ table.foreignKeys.map mysql.foreignKeyDefinition

theorem exists_linePieces {table : Table} (h : ∀ column ∈ table.columns, column.Writable) :
    ∀ line ∈ Dialect.mysqlLines table,
      ∃ pieces, spelling pieces = "\n  ".toList ++ line.toList ∧ Legible pieces := by
  intro line hline
  simp only [Dialect.mysqlLines, List.mem_append, List.mem_map] at hline
  rcases hline with (⟨column, hmem, rfl⟩ | ⟨index, -, rfl⟩) | ⟨key, -, rfl⟩
  · exact (h column hmem).exists_pieces isBlank_of_mem_newline
  · exact ⟨_, spelling_indexPieces "\n  ".toList index,
      legible_indexPieces isBlank_of_mem_newline index⟩
  · exact ⟨_, spelling_foreignKeyPieces "\n  ".toList key,
      legible_foreignKeyPieces isBlank_of_mem_newline key⟩

theorem exists_items {lines : List String}
    (h : ∀ line ∈ lines, ∃ pieces, spelling pieces = "\n  ".toList ++ line.toList ∧
      Legible pieces) :
    ∃ items : List (List Piece),
      items.map spelling = lines.map (fun line => "\n  ".toList ++ line.toList) ∧
        ∀ item ∈ items, Legible item := by
  induction lines with
  | nil => exact ⟨[], rfl, by simp⟩
  | cons line lines ih =>
      obtain ⟨first, hspelling, hlegible⟩ := h line (by simp)
      obtain ⟨items, hitems, hall⟩ := ih fun other hother => h other (by simp [hother])
      refine ⟨first :: items, by simp [hspelling, hitems], ?_⟩
      intro item hitem
      rcases List.mem_cons.mp hitem with rfl | hitem
      · exact hlegible
      · exact hall item hitem

/-- Lines in parentheses, and the parentheses alone when there is none. -/
theorem spaced_list {lines : List String}
    (h : ∀ line ∈ lines, ∃ pieces, spelling pieces = "\n  ".toList ++ line.toList ∧
      Legible pieces) :
    Spaced ("(\n".toList ++ (",\n".intercalate (lines.map ("  " ++ ·))).toList
      ++ "\n)".toList) := by
  cases lines with
  | nil =>
      have hgap : ∀ c ∈ ['\n', '\n'], Text.isBlank c = true :=
        List.all_iff_forall_prop.mp (by decide)
      have hclose : Legible [closePiece ['\n', '\n']] := legible_nil.rightParen hgap
      exact ⟨[openPiece [' '], closePiece ['\n', '\n']], rfl,
        hclose.leftParen isBlank_of_mem_space⟩
  | cons line lines =>
      obtain ⟨items, hspellings, hlegible⟩ := exists_items h
      obtain ⟨first, others, rfl⟩ : ∃ first others, items = first :: others := by
        cases items with
        | nil => cases hspellings
        | cons first others => exact ⟨first, others, rfl⟩
      have hgap : ∀ c ∈ ['\n'], Text.isBlank c = true :=
        List.forall_mem_singleton.mpr (by decide)
      have hclose : Legible [closePiece ['\n']] := legible_nil.rightParen hgap
      have hbody := (legible_commaPieces hlegible).append hclose
        (delimited_of_head? rfl (by decide))
      refine ⟨openPiece [' '] :: (Parser.commaPieces (first :: others) ++ [closePiece ['\n']]), ?_,
        hbody.leftParen isBlank_of_mem_space⟩
      rw [List.map_cons, List.map_cons, List.cons.injEq] at hspellings
      have hothers : others.flatMap (fun item => ',' :: spelling item)
          = lines.flatMap fun line => ",\n  ".toList ++ line.toList := by
        rw [← List.flatMap_map spelling (fun text => ',' :: text), hspellings.2, List.flatMap_map]
        rfl
      rw [spelling_cons, spelling_append, spelling_commaPieces, hspellings.1, hothers,
        List.map_cons, toList_intercalate_cons, List.flatMap_map]
      simp [openPiece, closePiece, Piece.spelling]

theorem Table.legibleStatement {table : Table} (h : ∀ column ∈ table.columns, column.Writable) :
    LegibleStatement (Dialect.mysql.createTable table) := by
  have hlist := ((spaced_list (exists_linePieces h)).name table.name).keyword .TABLE
  refine hlist.legibleStatement (whole_keyword .CREATE) (by simp) ?_
  delta Dialect.createTable Dialect.mysqlLines
  simp [Keyword.spelling, Dialect.quoteName, Dialect.mysql]

/-! ## Changed tables -/

/-- The columns that the edit writes can be read. -/
def TableEdit.Writable : TableEdit → Prop
  | .addColumn column => column.Writable
  | .changeColumn change => change.new.Writable
  | _ => True

namespace Sql.Spaced

variable {rest : List Char}

theorem verb (h : Spaced rest) (verb : String) (hverb : verb ∈ Dialect.mysqlVerbs) :
    Spaced (verb.toList ++ ' ' :: rest) :=
  h.word (isWord_of_mem_mysqlVerbs verb hverb)

/-- All edits of a table are written behind its name. -/
theorem alter (h : Spaced rest) (table : String) {statement : String}
    (htext : statement.toList
      = "ALTER TABLE ".toList ++ (quoteName Dialect.mysqlQuote table).toList ++ ' ' :: rest) :
    LegibleStatement statement := by
  have hword : IsWord "ALTER".toList := isWord_of_mem_mysqlVerbs "ALTER" (by decide)
  refine ((h.name table).keyword .TABLE).legibleStatement hword
    (kind_of_isWordKind (isWordKind_wordKind _)) ?_
  rw [htext]
  simp [Keyword.spelling]

end Sql.Spaced

theorem TableEdit.legibleStatement (table : String) {edit : TableEdit} (h : edit.Writable) :
    LegibleStatement (Dialect.mysql.alterTable table edit) := by
  cases edit with
  | dropForeignKey name =>
      have hclause := (((Spaced.of_name name).keyword .KEY).keyword .FOREIGN).verb "DROP"
        (by decide)
      refine hclause.alter table ?_
      simp [Dialect.alterTable, Dialect.mysql, Dialect.quoteName, Keyword.spelling]
  | dropIndex index =>
      cases hprimary : index.isPrimary with
      | true =>
          have hclause := ((Spaced.of_keyword .KEY).keyword .PRIMARY).verb "DROP" (by decide)
          refine hclause.alter table ?_
          simp [Dialect.alterTable, Dialect.mysql, Dialect.mysqlAlter, hprimary, Keyword.spelling]
      | false =>
          have hclause := ((Spaced.of_name index.name).keyword .INDEX).verb "DROP" (by decide)
          refine hclause.alter table ?_
          simp [Dialect.alterTable, Dialect.mysql, Dialect.mysqlAlter, hprimary, Keyword.spelling]
  | dropColumn name =>
      have hclause := ((Spaced.of_name name).verb "COLUMN" (by decide)).verb "DROP" (by decide)
      refine hclause.alter table ?_
      simp [Dialect.alterTable, Dialect.alterTable.alter, Dialect.mysql, Dialect.quoteName]
  | changeColumn change =>
      have hclause := ((Column.Writable.spaced h).name change.old.name).verb "CHANGE" (by decide)
      refine hclause.alter table ?_
      simp [Dialect.alterTable, Dialect.mysql, Dialect.mysqlAlter, Dialect.columnDefinition]
  | addColumn column =>
      have hclause := ((Column.Writable.spaced h).verb "COLUMN" (by decide)).verb "ADD" (by decide)
      refine hclause.alter table ?_
      simp [Dialect.alterTable, Dialect.alterTable.alter, Dialect.mysql, Dialect.quoteName]
  | addIndex index =>
      have hclause := (spaced_indexDefinition index).verb "ADD" (by decide)
      refine hclause.alter table ?_
      simp [Dialect.alterTable, Dialect.alterTable.alter, Dialect.mysql, Dialect.quoteName]
  | renameIndex old new =>
      have hclause := ((((Spaced.of_name new).verb "TO" (by decide)).name old).keyword
        .INDEX).verb "RENAME" (by decide)
      refine hclause.alter table ?_
      simp [Dialect.alterTable, Dialect.mysql, Dialect.mysqlAlter, Keyword.spelling]
  | addForeignKey key =>
      have hclause := (spaced_foreignKeyDefinition key).verb "ADD" (by decide)
      refine hclause.alter table ?_
      simp [Dialect.alterTable, Dialect.alterTable.alter, Dialect.mysql, Dialect.quoteName]

/-! ## Statements -/

/-- All columns that the edit writes can be read. -/
def SchemaEdit.Writable : SchemaEdit → Prop
  | .createTable table => ∀ column ∈ table.columns, column.Writable
  | .alterTable _ edit => edit.Writable
  | _ => True

theorem SchemaEdit.legibleStatement {edit : SchemaEdit} (h : edit.Writable) :
    LegibleStatement (Dialect.mysql.statement edit) := by
  cases edit with
  | createTable table => exact Table.legibleStatement h
  | alterTable name edit => exact TableEdit.legibleStatement name h
  | dropTable name =>
      have hword : IsWord "DROP".toList := isWord_of_mem_mysqlVerbs "DROP" (by decide)
      refine ((Spaced.of_name name).keyword .TABLE).legibleStatement hword
        (Spaced.kind_of_isWordKind (isWordKind_wordKind _)) ?_
      simp [Dialect.statement, Dialect.quoteName, Dialect.mysql, Keyword.spelling]
  | renameTable old new =>
      have hword : IsWord "RENAME".toList := isWord_of_mem_mysqlVerbs "RENAME" (by decide)
      have hnames := ((Spaced.of_name new).verb "TO" (by decide)).name old
      refine (hnames.keyword .TABLE).legibleStatement hword
        (Spaced.kind_of_isWordKind (isWordKind_wordKind _)) ?_
      simp [Dialect.statement, Dialect.quoteName, Dialect.mysql, Keyword.spelling]

end SchemaDelta
