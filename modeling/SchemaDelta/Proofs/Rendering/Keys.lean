import SchemaDelta.Proofs.Rendering.Pieces
import SchemaDelta.Sql.Statement

/-!
# Keys as a dialect writes them

The definitions that indexes and foreign keys are written as, and their pieces.
-/

namespace SchemaDelta

open Sql

/-- The definition that an index is written as. -/
def Index.written (index : Index) : Definition :=
  match index.kind with
  | .primary => .primaryKey index.columns
  | kind => .index ⟨some index.name, kind, index.columns⟩

/-- An action that is left out is the default one. -/
def ReferentialAction.written (action : ReferentialAction) : Option ReferentialAction :=
  if action = .noAction then none else some action

/-- The definition that a foreign key is written as. -/
def ForeignKey.written (key : ForeignKey) : ForeignKeyDef where
  name := some key.name
  columns := key.columns
  referencedTable := key.referencedTable
  referencedColumns := key.referencedColumns
  onUpdate := key.onUpdate.written
  onDelete := key.onDelete.written

namespace Sql

def indexPieces (gap : List Char) (index : Index) : List Piece :=
  let columns := namesPieces [' '] index.columns
  let named := namePiece [' '] index.name :: columns
  match index.kind with
  | .primary => keywordPiece gap .PRIMARY :: keywordPiece [' '] .KEY :: columns
  | .unique => keywordPiece gap .UNIQUE :: keywordPiece [' '] .KEY :: named
  | .fulltext => keywordPiece gap .FULLTEXT :: keywordPiece [' '] .KEY :: named
  | .spatial => keywordPiece gap .SPATIAL :: keywordPiece [' '] .KEY :: named
  | .plain => keywordPiece gap .KEY :: named

def actionKeywords : ReferentialAction → List Keyword
  | .noAction => [.NO, .ACTION]
  | .restrict => [.RESTRICT]
  | .cascade => [.CASCADE]
  | .setNull => [.SET, .NULL]
  | .setDefault => [.SET, .DEFAULT]

def clausePieces (event : Keyword) (action : ReferentialAction) : List Piece :=
  keywordPiece [' '] .ON :: keywordPiece [' '] event
    :: (actionKeywords action).map (keywordPiece [' '])

/-- The pieces of a clause, unless the action is the default one. -/
def actionPieces (event : Keyword) (action : ReferentialAction) : List Piece :=
  if action = .noAction then [] else clausePieces event action

def foreignKeyPieces (gap : List Char) (key : ForeignKey) : List Piece :=
  keywordPiece gap .CONSTRAINT :: namePiece [' '] key.name
    :: keywordPiece [' '] .FOREIGN :: keywordPiece [' '] .KEY
    :: (namesPieces [' '] key.columns
      ++ keywordPiece [' '] .REFERENCES :: namePiece [' '] key.referencedTable
        :: (namesPieces [' '] key.referencedColumns
          ++ (actionPieces .DELETE key.onDelete ++ actionPieces .UPDATE key.onUpdate)))

/-! ## Spelling -/

theorem spelling_indexPieces (gap : List Char) (index : Index) :
    spelling (indexPieces gap index)
      = gap ++ (Dialect.mysql.indexDefinition index).toList := by
  unfold indexPieces Dialect.indexDefinition
  cases index.kind
  all_goals
    simp [keywordPiece, namePiece, Piece.spelling, spelling_namesPieces, Keyword.spelling,
      Dialect.quoteName, Dialect.mysql]

theorem spelling_actionPieces (event : Keyword) (action : ReferentialAction) :
    spelling (actionPieces event action)
      = (Dialect.actionClause event.spelling action).toList := by
  unfold actionPieces Dialect.actionClause
  split
  next => rfl
  next =>
    cases action
    all_goals
      simp [clausePieces, actionKeywords, keywordPiece, Piece.spelling, ReferentialAction.sql,
        Keyword.spelling]

/-- Unfolds the text of a foreign key; the equation that `simp` would make for it takes
too long to check. -/
theorem toList_foreignKeyDefinition (key : ForeignKey) :
    (Dialect.mysql.foreignKeyDefinition key).toList
      = "CONSTRAINT ".toList ++ (quoteName Dialect.mysqlQuote key.name).toList
        ++ " FOREIGN KEY (".toList ++ (Dialect.mysql.quoteNames key.columns).toList
        ++ ") REFERENCES ".toList ++ (quoteName Dialect.mysqlQuote key.referencedTable).toList
        ++ " (".toList ++ (Dialect.mysql.quoteNames key.referencedColumns).toList ++ [')']
        ++ (Dialect.actionClause "DELETE" key.onDelete).toList
        ++ (Dialect.actionClause "UPDATE" key.onUpdate).toList := by
  delta Dialect.foreignKeyDefinition
  simp only [String.toList_append]
  rfl

theorem spelling_foreignKeyPieces (gap : List Char) (key : ForeignKey) :
    spelling (foreignKeyPieces gap key)
      = gap ++ (Dialect.mysql.foreignKeyDefinition key).toList := by
  have hdelete := spelling_actionPieces .DELETE key.onDelete
  have hupdate := spelling_actionPieces .UPDATE key.onUpdate
  simp only [Keyword.spelling] at hdelete hupdate
  simp [foreignKeyPieces, toList_foreignKeyDefinition, keywordPiece, namePiece, Piece.spelling,
    spelling_namesPieces, Keyword.spelling, hdelete, hupdate]

/-! ## Legibility -/

section Legibility

variable {gap : List Char}

theorem legible_indexPieces (hgap : ∀ c ∈ gap, Text.isBlank c = true) (index : Index) :
    Legible (indexPieces gap index) := by
  have hcolumns := legible_namesPieces isBlank_of_mem_space index.columns
  have hnamed := legible_namePiece index.name isBlank_of_mem_space
    (delimited_of_head? rfl (by decide)) hcolumns
  have hkey := legible_keywordPiece .KEY isBlank_of_mem_space (delimited_of_head? rfl (by decide))
    hnamed
  unfold indexPieces
  cases index.kind
  case primary =>
    refine legible_keywordPiece _ hgap ?_ (legible_keywordPiece _ isBlank_of_mem_space ?_ hcolumns)
    all_goals exact delimited_of_head? rfl (by decide)
  case plain =>
    exact legible_keywordPiece _ hgap (delimited_of_head? rfl (by decide)) hnamed
  all_goals
    exact legible_keywordPiece _ hgap (delimited_of_head? rfl (by decide)) hkey

/-- Keywords with spaces in between. -/
theorem legible_keywordPieces (keywords : List Keyword) :
    Legible (keywords.map (keywordPiece [' '])) := by
  induction keywords with
  | nil => exact legible_nil
  | cons keyword keywords ih =>
      refine legible_keywordPiece keyword isBlank_of_mem_space ?_ ih
      cases keywords with
      | nil => simp
      | cons next keywords => exact delimited_of_head? rfl (by decide)

theorem legible_actionPieces (event : Keyword) (action : ReferentialAction) :
    Legible (actionPieces event action) := by
  unfold actionPieces
  split
  next => exact legible_nil
  next => exact legible_keywordPieces (.ON :: event :: actionKeywords action)

theorem delimited_actionPieces (event : Keyword) (action : ReferentialAction) :
    Delimited (spelling (actionPieces event action)) := by
  unfold actionPieces
  split
  next => simp
  next => exact delimited_of_head? rfl (by decide)

theorem legible_foreignKeyPieces (hgap : ∀ c ∈ gap, Text.isBlank c = true) (key : ForeignKey) :
    Legible (foreignKeyPieces gap key) := by
  have hactions : Legible (actionPieces .DELETE key.onDelete
      ++ actionPieces .UPDATE key.onUpdate) :=
    (legible_actionPieces _ _).append (legible_actionPieces _ _) (delimited_actionPieces _ _)
  have hdelimited : Delimited (spelling (actionPieces .DELETE key.onDelete
      ++ actionPieces .UPDATE key.onUpdate)) := by
    rw [spelling_append]
    exact (delimited_actionPieces _ _).append (delimited_actionPieces _ _)
  refine legible_keywordPiece _ hgap (delimited_of_head? rfl (by decide)) ?_
  refine legible_namePiece _ isBlank_of_mem_space (delimited_of_head? rfl (by decide)) ?_
  refine legible_keywordPiece _ isBlank_of_mem_space (delimited_of_head? rfl (by decide)) ?_
  refine legible_keywordPiece _ isBlank_of_mem_space (delimited_of_head? rfl (by decide)) ?_
  refine (legible_namesPieces isBlank_of_mem_space _).append ?_ (delimited_of_head? rfl (by decide))
  refine legible_keywordPiece _ isBlank_of_mem_space (delimited_of_head? rfl (by decide)) ?_
  refine legible_namePiece _ isBlank_of_mem_space (delimited_of_head? rfl (by decide)) ?_
  exact (legible_namesPieces isBlank_of_mem_space _).append hactions hdelimited

end Legibility

end Sql

end SchemaDelta
