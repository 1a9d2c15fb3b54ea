import SchemaDelta.Proofs.Rendering.Keys
import SchemaDelta.Sql.Parser.Table

/-!
# Keys are read back

Primary keys, indexes and foreign keys are accepted as they are written, in front
of the comma or the closing parenthesis behind a definition.
-/

namespace SchemaDelta.Sql.Parser

def endsDefinition (kind : TokenKind) : Prop :=
  kind = .comma ∨ kind = .rightParen

theorem accepts_keyColumn {piece : Piece} {name : String} (h : piece.kind = .quoted name) :
    Accepts keyColumn [piece] name
      (fun kind => kind ∉ [.leftParen, .keyword .ASC, .keyword .DESC]) := by
  refine (accepts_name h).cons ?_
  refine (accepts_eatKind_nil .leftParen).peek ?_ fun kind hkind => by simp_all
  refine (accepts_eatKind_nil (.keyword .ASC)).peek ?_ fun kind hkind => by simp_all
  refine (accepts_eatKind_nil (.keyword .DESC)).peek ?_ fun kind hkind => by simp_all
  exact reads_pure rfl

theorem accepts_keyColumns {gap : List Char} {names : List String} (hne : names ≠ []) :
    Accepts keyColumns (namesPieces gap names) names anything := by
  cases names with
  | nil => exact absurd rfl hne
  | cons name names =>
      let items : List (List Piece × String) :=
        ([namePiece [] name], name) :: names.map fun name => ([namePiece [' '] name], name)
      have hitems : ∀ entry ∈ items, Accepts keyColumn entry.1 entry.2
          (fun kind => kind ∉ [.leftParen, .keyword .ASC, .keyword .DESC]) := by
        intro entry hentry
        simp only [items, List.mem_cons, List.mem_map] at hentry
        rcases hentry with rfl | ⟨name, -, rfl⟩
        all_goals exact accepts_keyColumn rfl
      have hlist := accepts_commaSeparated (by simp [items]) hitems (by simp)
      have hpieces : items.map (·.1) = nameItems (name :: names) := by simp [items, nameItems]
      have hnames : items.map (·.2) = name :: names := by simp [items, Function.comp_def]
      rw [hpieces, hnames] at hlist
      have hopen : (openPiece gap).kind = .leftParen := rfl
      have hclose : (closePiece []).kind = .rightParen := rfl
      refine (accepts_expectKind hopen).cons ?_
      refine hlist.bind ((accepts_expectKind hclose).cons (reads_pure rfl)) fun kind _ => ?_
      simp [closePiece]

theorem accepts_skipIndexType : Accepts skipIndexType [] () (· ≠ .keyword .USING) := by
  refine (accepts_eatKind_nil (.keyword .USING)).peek ?_ fun kind hkind => hkind
  exact reads_pure rfl

theorem accepts_skipIndexOptions : Accepts skipIndexOptions [] () endsDefinition := by
  have hoption : Accepts skipIndexOption [] false endsDefinition := by
    refine (accepts_eatKind_nil (.keyword .USING)).peek ?_ ?_
    refine (accepts_eatKind_nil (.keyword .COMMENT)).peek ?_ ?_
    refine accepts_eat_nil.peek ?_ ?_
    refine accepts_eat_nil.peek ?_ ?_
    refine accepts_eat_nil.peek ?_ ?_
    exact reads_pure rfl
    all_goals
      intro kind hkind
      rcases hkind with rfl | rfl
      all_goals simp [isWord]
  have hloop := (hoption.map fun more => ((), more)).repeatWhile_false
  exact hloop.last (reads_pure rfl) fun kind hkind => hkind

theorem accepts_keyBody (gap : List Char) {names : List String} (hne : names ≠ []) :
    Accepts keyBody (namesPieces gap names) names endsDefinition := by
  refine accepts_skipIndexType.peek ?_ fun kind hkind => by simp [namesPieces, openPiece]
  refine (accepts_keyColumns hne).last ?_ fun kind hkind => trivial
  exact accepts_skipIndexOptions.peek (reads_pure rfl) fun kind hkind => hkind

/-! ## Indexes -/

theorem accepts_constraintName?_none :
    Accepts constraintName? [] none (· ≠ .keyword .CONSTRAINT) := by
  refine (accepts_eatKind_nil (.keyword .CONSTRAINT)).peek ?_ fun kind hkind => hkind
  exact reads_pure rfl

theorem accepts_constraintName?_some {gap : List Char} {piece : Piece} {name : String}
    (h : piece.kind = .quoted name) :
    Accepts constraintName? [keywordPiece gap .CONSTRAINT, piece] (some name) anything := by
  refine Accepts.cons (accepts_eatKind rfl) ?_
  refine reads_current_bind fun offset => ?_
  simp only [nameOf?, Piece.kind_token, h, Option.isSome_some, if_true]
  exact (accepts_name h).map some

/-- An index clause gives its own name. -/
theorem accepts_indexName? {piece : Piece} {name : String} (h : piece.kind = .quoted name) :
    Accepts indexName? [piece] (some name) anything := by
  refine (accepts_atKind_nil .leftParen).peek ?_ fun kind _ => by simp [h]
  refine (accepts_atKind_nil (.keyword .USING)).peek ?_ fun kind _ => by simp [h]
  exact (accepts_name h).map some

/-- Where the columns follow at once, there is no name. -/
theorem accepts_indexName?_none : Accepts indexName? [] none (· = .leftParen) := by
  refine (accepts_atKind_self .leftParen).peek ?_ fun kind hkind => hkind
  refine (accepts_atKind_nil (.keyword .USING)).peek (reads_pure rfl) fun kind hkind => ?_
  simp [hkind]

theorem accepts_index {gap : List Char} {index : Index} (hne : index.columns ≠ []) :
    Accepts definition (indexPieces gap index) (some index.written) endsDefinition := by
  refine accepts_constraintName?_none.peek ?_ fun kind _ => ?_
  · have hcolumns := accepts_keyBody [' '] hne
    unfold indexPieces Index.written
    cases hkind : index.kind
    all_goals
      refine reads_current_bind fun offset => ?_
      simp only [keywordPiece, Piece.kind_token]
    case primary =>
      refine (accepts_advance _).cons (Accepts.cons (accepts_expectKeyword rfl) ?_)
      exact hcolumns.map _
    case plain =>
      refine (accepts_advance _).cons (Accepts.cons (accepts_indexName? rfl) ?_)
      exact hcolumns.map _
    all_goals
      refine (accepts_advance _).cons ?_
      refine (accepts_eatKind_nil (.keyword .INDEX)).peek ?_ fun kind _ => by simp
      refine Accepts.cons (accepts_eatKind rfl) (Accepts.cons (accepts_indexName? rfl) ?_)
      exact hcolumns.map _
  · unfold indexPieces
    cases index.kind <;> simp [keywordPiece]

/-! ## Foreign keys -/

theorem accepts_qualifiedName {piece : Piece} {name : String} (h : piece.kind = .quoted name) :
    Accepts qualifiedName [piece] (none, name) (· ≠ .dot) := by
  refine (accepts_name h).cons ?_
  refine (accepts_eatKind_nil .dot).peek (reads_pure rfl) fun kind hkind => hkind

theorem accepts_referentialAction (action : ReferentialAction) :
    Accepts referentialAction ((actionKeywords action).map (keywordPiece [' '])) action
      anything := by
  unfold referentialAction
  cases action
  case cascade => exact Accepts.cons (accepts_eatKind rfl) (reads_pure rfl)
  all_goals
    refine (accepts_eatKind_nil (.keyword .CASCADE)).peek ?_
      fun kind _ => by simp [actionKeywords, keywordPiece]
  case restrict => exact Accepts.cons (accepts_eatKind rfl) (reads_pure rfl)
  all_goals
    refine (accepts_eatKind_nil (.keyword .RESTRICT)).peek ?_
      fun kind _ => by simp [actionKeywords, keywordPiece]
  case noAction =>
    refine (accepts_eatKind_nil (.keyword .SET)).peek ?_
      fun kind _ => by simp [actionKeywords, keywordPiece]
    exact Accepts.cons (accepts_eatKind rfl)
      (Accepts.cons (accepts_expectKeyword rfl) (reads_pure rfl))
  case setNull =>
    exact Accepts.cons (accepts_eatKind rfl) (Accepts.cons (accepts_eatKind rfl) (reads_pure rfl))
  case setDefault =>
    refine Accepts.cons (accepts_eatKind rfl) ?_
    refine (accepts_eatKind_nil (.keyword .NULL)).peek ?_ fun kind _ => by simp [keywordPiece]
    exact Accepts.cons (accepts_expectKeyword rfl) (reads_pure rfl)

/-- The word of an event, and whether it is the one for updates. -/
theorem accepts_referentialClause {updates : Bool} (action : ReferentialAction) :
    Accepts referentialClause
      (keywordPiece [' '] (if updates then .UPDATE else .DELETE)
        :: (actionKeywords action).map (keywordPiece [' ']))
      (updates, action) anything := by
  unfold referentialClause
  cases updates
  case true =>
    refine Accepts.cons (accepts_eatKind rfl) ?_
    exact (accepts_referentialAction action).map _
  case false =>
    refine (accepts_eatKind_nil (.keyword .UPDATE)).peek ?_ fun kind _ => by simp [keywordPiece]
    refine Accepts.cons (accepts_eatKind rfl) ?_
    exact (accepts_referentialAction action).map _

/-- The clauses that a foreign key is written with. -/
def writtenClauses (key : ForeignKey) : List (Bool × ReferentialAction) :=
  (key.onDelete.written.map fun action => (false, action)).toList
    ++ (key.onUpdate.written.map fun action => (true, action)).toList

theorem actionFor?_writtenClauses (key : ForeignKey) :
    actionFor? true (writtenClauses key) = key.onUpdate.written
      ∧ actionFor? false (writtenClauses key) = key.onDelete.written := by
  unfold writtenClauses
  cases key.onDelete.written <;> cases key.onUpdate.written <;> exact ⟨rfl, rfl⟩

theorem accepts_referentialClauses (key : ForeignKey) :
    Accepts referentialClauses
      (actionPieces .DELETE key.onDelete ++ actionPieces .UPDATE key.onUpdate)
      (writtenClauses key) (· ≠ .keyword .ON) := by
  let items : List (List Piece × (Bool × ReferentialAction)) :=
    (writtenClauses key).map fun clause =>
      (clausePieces (if clause.1 then .UPDATE else .DELETE) clause.2, clause)
  have hpieces : items.flatMap (·.1)
      = actionPieces .DELETE key.onDelete ++ actionPieces .UPDATE key.onUpdate := by
    unfold items writtenClauses actionPieces ReferentialAction.written
    split <;> split <;> simp
  have hvalues : (items.map (fun entry : List Piece × (Bool × ReferentialAction) =>
      some entry.2) ++ [none]).filterMap id = writtenClauses key := by
    simp [items, List.filterMap_append, List.filterMap_map, Function.comp_def]
  let step : Parser (Option (Bool × ReferentialAction) × Bool) := do
    if ← eatKeyword .ON then
      return (some (← referentialClause), true)
    else
      return (none, false)
  have hitem : ∀ entry ∈ items, Accepts step entry.1 (some entry.2, true) anything := by
    intro entry hentry
    obtain ⟨clause, -, rfl⟩ := List.mem_map.mp hentry
    refine Accepts.cons (accepts_eatKind rfl) ?_
    exact (accepts_referentialClause clause.2).map _
  have hend : Accepts step [] (none, false) (· ≠ .keyword .ON) :=
    (accepts_eatKind_nil (.keyword .ON)).peek (reads_pure rfl) fun kind hkind => hkind
  have hfirst : ∀ entry ∈ items, entry.1 ≠ [] ∧ ∀ kind, anything (firstKind entry.1 kind) := by
    intro entry hentry
    obtain ⟨clause, -, rfl⟩ := List.mem_map.mp hentry
    exact ⟨by simp [clausePieces], fun _ => trivial⟩
  rw [← hpieces, ← hvalues]
  exact (accepts_repeatWhile_none hitem hfirst hend fun _ _ => trivial).map (List.filterMap id)

/-- The pieces of a foreign key behind the name of its constraint. -/
def referencePieces (key : ForeignKey) : List Piece :=
  keywordPiece [' '] .FOREIGN :: keywordPiece [' '] .KEY
    :: (namesPieces [' '] key.columns
      ++ keywordPiece [' '] .REFERENCES :: namePiece [' '] key.referencedTable
        :: (namesPieces [' '] key.referencedColumns
          ++ (actionPieces .DELETE key.onDelete ++ actionPieces .UPDATE key.onUpdate)))

theorem firstKind_actionPieces (key : ForeignKey) {kind : TokenKind} (h : endsDefinition kind) :
    firstKind (actionPieces .DELETE key.onDelete ++ actionPieces .UPDATE key.onUpdate) kind
      ≠ .keyword .MATCH := by
  unfold actionPieces
  rcases h with rfl | rfl
  all_goals split <;> split <;> simp [clausePieces, keywordPiece]

theorem accepts_references {key : ForeignKey} (hcolumns : key.columns ≠ [])
    (hreferenced : key.referencedColumns ≠ []) :
    Accepts (foreignKey (some key.name)) (referencePieces key) key.written endsDefinition := by
  refine Accepts.cons (accepts_expectKeyword rfl) (Accepts.cons (accepts_expectKeyword rfl) ?_)
  refine accepts_indexName?_none.peek ?_ fun kind _ => rfl
  refine (accepts_keyColumns hcolumns).andThen (Accepts.cons (accepts_expectKeyword rfl) ?_)
  have htail : Accepts (do
      let referencedColumns ← keyColumns
      if ← eatKeyword .MATCH then
        let _ ← name
      let clauses ← referentialClauses
      return {
        name := some key.name
        columns := key.columns
        referencedTable := key.referencedTable
        referencedColumns
        onUpdate := actionFor? true clauses
        onDelete := actionFor? false clauses : ForeignKeyDef })
      (namesPieces [' '] key.referencedColumns
        ++ (actionPieces .DELETE key.onDelete ++ actionPieces .UPDATE key.onUpdate))
      key.written endsDefinition := by
    refine (accepts_keyColumns hreferenced).andThen ?_
    refine (accepts_eatKind_nil (.keyword .MATCH)).peek ?_
      fun kind hkind => firstKind_actionPieces key hkind
    refine (accepts_referentialClauses key).last ?_ fun kind hkind => ?_
    · obtain ⟨hupdate, hdelete⟩ := actionFor?_writtenClauses key
      rw [hupdate, hdelete]
      exact reads_pure rfl
    · rcases hkind with rfl | rfl <;> simp
  refine Accepts.bind (accepts_qualifiedName rfl) htail fun kind _ => ?_
  simp [openPiece]


theorem accepts_foreignKey {gap : List Char} {key : ForeignKey} (hcolumns : key.columns ≠ [])
    (hreferenced : key.referencedColumns ≠ []) :
    Accepts definition (foreignKeyPieces gap key) (some (.foreignKey key.written))
      endsDefinition := by
  have hbody : Accepts (definitionBody (some key.name)) (referencePieces key)
      (some (.foreignKey key.written)) endsDefinition := by
    refine reads_current_bind fun offset => ?_
    exact (accepts_references hcolumns hreferenced).map fun key => some (Definition.foreignKey key)
  exact (accepts_constraintName?_some rfl).andThen hbody

end SchemaDelta.Sql.Parser
