import Mathlib.Data.List.Forall2
import SchemaDelta.Proofs.Parsing.Column

/-!
# Tables are read back

A table is written as one definition a line.  The statement is read as the creation
of a table with these definitions, and nothing of it is left over.
-/

namespace SchemaDelta

open Sql Sql.Parser

/-- The definitions of a table: its columns, indexes and foreign keys in order. -/
def Table.DefinedBy (table : Table) (definitions : List Definition) : Prop :=
  ∃ columns, List.Forall₂ Column.WrittenAs table.columns columns
    ∧ definitions = columns.map .column ++ table.allIndexes.map Index.written
      ++ table.foreignKeys.map (.foreignKey ·.written)

/-- A statement creates the table. -/
structure Table.WrittenAs (table : Table) (written : CreateTable) : Prop where
  name : written.name = table.name
  definitions : table.DefinedBy written.definitions

namespace Sql

/-! ## Lists of definitions -/

namespace Parser

variable {α : Type}

theorem Reads.quotingDefinition {p : Parser α} {pieces : List Piece} {Q : α → Prop}
    {follow : TokenKind → Prop} (h : Reads p pieces Q follow) :
    Reads (quotingDefinition p) pieces Q follow := by
  intro input offset hstands hkind
  obtain ⟨a, last, ha, hlast⟩ := h input offset hstands hkind
  refine ⟨a, last, ha, ?_⟩
  rw [Parser.quotingDefinition, parse_bind, parse_get]
  dsimp only
  rw [parse_tryCatch, hlast]

/-- The definitions have the properties one by one. -/
def Meets : List (Option Definition → Prop) → List (Option Definition) → Prop :=
  List.Forall₂ fun Q parsed => Q parsed

/-- Definitions with commas in between and a parenthesis behind the last one. -/
theorem reads_listedDefinitions {gap : List Char}
    {items : List (List Piece × (Option Definition → Prop))} (hne : items ≠ [])
    (h : ∀ item ∈ items, item.1 ≠ [] ∧ Reads definition item.1 item.2 endsDefinition) :
    Reads (repeatWhile (quotingDefinition listedDefinition))
      (commaPieces (items.map (·.1)) ++ [closePiece gap])
      (Meets (items.map (·.2))) anything := by
  induction items with
  | nil => exact absurd rfl hne
  | cons item items ih =>
      obtain ⟨hitemNe, hitem⟩ := h item (by simp)
      cases items with
      | nil =>
          have hstep : Reads listedDefinition (item.1 ++ [closePiece gap])
              (fun result => item.2 result.1 ∧ result.2 = false) anything := by
            refine hitem.bind (fun parsed hparsed => ?_) fun kind _ => .inr rfl
            refine (accepts_eatKind_nil .comma).peek ?_ fun kind _ => by simp [closePiece]
            exact Accepts.cons (accepts_expectKind rfl) (reads_pure ⟨hparsed, rfl⟩)
          refine hstep.quotingDefinition.repeatWhile_false.imp ?_
          rintro _ ⟨parsed, rfl, hparsed⟩
          exact .cons hparsed .nil
      | cons next items =>
          have hstep : Reads listedDefinition (item.1 ++ [commaPiece])
              (fun result => item.2 result.1 ∧ result.2 = true) anything := by
            refine hitem.bind (fun parsed hparsed => ?_) fun kind _ => .inl rfl
            exact Accepts.cons (accepts_eatKind rfl) (reads_pure ⟨hparsed, rfl⟩)
          have hrest := ih (by simp) fun item hmem => h item (by simp [hmem])
          have hall := hstep.quotingDefinition.repeatWhile_true (by simp) hrest fun _ _ => trivial
          have hpieces : commaPieces ((item :: next :: items).map (·.1)) ++ [closePiece gap]
              = (item.1 ++ [commaPiece])
                ++ (commaPieces ((next :: items).map (·.1)) ++ [closePiece gap]) := by
            simp [commaPieces]
          rw [hpieces]
          refine hall.imp ?_
          rintro _ ⟨parsed, rest, rfl, hparsed, hrests⟩
          exact .cons hparsed hrests

/-! ## Everything that is left -/

/-- The parser reads the pieces when nothing stands behind them. -/
def ReadsAll (p : Parser α) (pieces : List Piece) (Q : α → Prop) : Prop :=
  ∀ (input : Input) (offset : Nat), StandsAt input.source offset pieces → input.tokens = [] →
    ∃ a last, Q a ∧ p.parse { input with tokens := tokensAt offset pieces ++ input.tokens }
      = (.ok a, { input with lastStop := last })

section ReadsAll

variable {β : Type} {p : Parser α} {f : α → Parser β} {ps qs : List Piece} {piece : Piece}
  {a : α} {Q : α → Prop} {R : β → Prop} {follow : TokenKind → Prop}

theorem Reads.bindAll (hp : Reads p ps Q follow) (hf : ∀ a, Q a → ReadsAll (f a) qs R)
    (hfollow : ∀ kind, follow (firstKind qs kind)) : ReadsAll (p >>= f) (ps ++ qs) R := by
  intro input offset hstands htokens
  obtain ⟨a, last, ha, hlast⟩ := hp
    { input with
      tokens := tokensAt (offset + Text.byteLength (spelling ps)) qs ++ input.tokens }
    offset hstands.left (by rw [current_tokensAt]; exact hfollow _)
  obtain ⟨b, last', hb, hlast'⟩ :=
    hf a ha { input with lastStop := last } _ hstands.right htokens
  refine ⟨b, last', hb, ?_⟩
  rw [tokensAt_append, List.append_assoc, parse_bind, hlast]
  exact hlast'

theorem Accepts.consAll (hp : Accepts p [piece] a anything) (hf : ReadsAll (f a) qs R) :
    ReadsAll (p >>= f) (piece :: qs) R :=
  Reads.bindAll hp (fun _ ha => ha ▸ hf) fun _ => trivial

theorem Accepts.peekAll (hp : Accepts p [] a follow) (hf : ReadsAll (f a) qs R)
    (hfollow : ∀ kind, follow (firstKind qs kind)) : ReadsAll (p >>= f) qs R :=
  Reads.bindAll hp (fun _ ha => ha ▸ hf) hfollow

theorem readsAll_current_bind {f : Token → Parser β}
    (h : ∀ offset, ReadsAll (f (piece.token offset)) (piece :: qs) R) :
    ReadsAll (current >>= f) (piece :: qs) R := by
  intro input offset hstands htokens
  rw [parse_bind, parse_current]
  exact h offset input offset hstands htokens

end ReadsAll

end Parser

/-! ## Lines -/

/-- A text is a definition with the property, on a line of its own. -/
def WritesDefinition (text : String) (Q : Option Definition → Prop) : Prop :=
  ∃ pieces, spelling pieces = "\n  ".toList ++ text.toList ∧ Legible pieces
    ∧ Reads definition pieces Q endsDefinition

theorem isBlank_of_mem_newline : ∀ c ∈ "\n  ".toList, Text.isBlank c = true :=
  List.all_iff_forall_prop.mp (by decide)

theorem writesDefinition_index {index : Index} (h : index.columns ≠ []) :
    WritesDefinition (Dialect.mysql.indexDefinition index) (· = some index.written) :=
  ⟨indexPieces "\n  ".toList index, spelling_indexPieces _ _,
    legible_indexPieces isBlank_of_mem_newline index, accepts_index h⟩

theorem writesDefinition_foreignKey {key : ForeignKey} (hcolumns : key.columns ≠ [])
    (hreferenced : key.referencedColumns ≠ []) :
    WritesDefinition (Dialect.mysql.foreignKeyDefinition key)
      (· = some (.foreignKey key.written)) :=
  ⟨foreignKeyPieces "\n  ".toList key, spelling_foreignKeyPieces _ _,
    legible_foreignKeyPieces isBlank_of_mem_newline key, accepts_foreignKey hcolumns hreferenced⟩

/-- Every line has its pieces. -/
theorem exists_definitionItems {entries : List (String × (Option Definition → Prop))}
    (h : ∀ entry ∈ entries, WritesDefinition entry.1 entry.2) :
    ∃ items : List (List Piece × (Option Definition → Prop)),
      items.map (·.2) = entries.map (·.2)
        ∧ items.map (spelling ·.1) = entries.map (fun entry => "\n  ".toList ++ entry.1.toList)
        ∧ ∀ item ∈ items, Legible item.1 ∧ item.1 ≠ []
          ∧ Reads definition item.1 item.2 endsDefinition := by
  induction entries with
  | nil => exact ⟨[], rfl, rfl, by simp⟩
  | cons entry entries ih =>
      obtain ⟨pieces, hspelling, hlegible, hreads⟩ := h entry (by simp)
      obtain ⟨items, hmeanings, htexts, hitems⟩ := ih fun entry hmem => h entry (by simp [hmem])
      refine ⟨(pieces, entry.2) :: items, by simp [hmeanings], by simp [hspelling, htexts], ?_⟩
      rintro item (_ | ⟨_, hitem⟩)
      · refine ⟨hlegible, ?_, hreads⟩
        rintro rfl
        simp at hspelling
      · exact hitems item hitem

end Sql

/-! ## Statements -/

/-- The lines of a table, and what they are read as. -/
def Table.lines (table : Table) : List (String × (Option Definition → Prop)) :=
  table.columns.map (fun column => (Dialect.mysql.columnDefinition column,
      fun parsed => ∃ written, parsed = some (.column written) ∧ column.WrittenAs written))
    ++ table.allIndexes.map (fun index => (Dialect.mysql.indexDefinition index,
      (· = some index.written)))
    ++ table.foreignKeys.map (fun key => (Dialect.mysql.foreignKeyDefinition key,
      (· = some (.foreignKey key.written))))

/-- What the parser can read back of a table. -/
structure Table.Writable (table : Table) : Prop where
  columns_ne_nil : table.columns ≠ []
  typeName : ∀ column ∈ table.columns, IsTypeName column.writtenType.name
  typeArgs : ∀ column ∈ table.columns, column.writtenType.args.Fits
  default : ∀ column ∈ table.columns, ∀ value ∈ column.default, value.Readable
  index : ∀ index ∈ table.allIndexes, index.columns ≠ []
  foreignKey : ∀ key ∈ table.foreignKeys, key.columns ≠ [] ∧ key.referencedColumns ≠ []

namespace Table

variable {table : Table}

theorem Writable.writesDefinition (h : table.Writable) :
    ∀ line ∈ table.lines, WritesDefinition line.1 line.2 := by
  intro line hline
  simp only [lines, List.mem_append, List.mem_map] at hline
  rcases hline with (⟨column, hmem, rfl⟩ | ⟨index, hmem, rfl⟩) | ⟨key, hmem, rfl⟩
  · exact exists_columnPieces isBlank_of_mem_newline (h.typeName column hmem)
      (h.typeArgs column hmem) (h.default column hmem)
  · exact writesDefinition_index (h.index index hmem)
  · obtain ⟨hcolumns, hreferenced⟩ := h.foreignKey key hmem
    exact writesDefinition_foreignKey hcolumns hreferenced

theorem toList_createTable (hne : table.columns ≠ []) :
    ∃ first others, table.lines.map (·.1) = first :: others
      ∧ (Dialect.mysql.createTable table).toList
        = "CREATE TABLE ".toList ++ (quoteName Dialect.mysqlQuote table.name).toList
          ++ " (\n  ".toList ++ first.toList
          ++ others.flatMap (fun line => ",\n  ".toList ++ line.toList) ++ "\n)".toList := by
  have hlines : table.lines.map (·.1)
      = table.columns.map Dialect.mysql.columnDefinition
        ++ table.allIndexes.map Dialect.mysql.indexDefinition
        ++ table.foreignKeys.map Dialect.mysql.foreignKeyDefinition := by
    simp only [lines, List.map_append, List.map_map, Function.comp_def]
  cases htexts : table.lines.map (·.1) with
  | nil =>
      rw [hlines] at htexts
      simp [hne] at htexts
  | cons first others =>
      refine ⟨first, others, rfl, ?_⟩
      delta Dialect.createTable
      dsimp only
      rw [← hlines, htexts, List.map_cons]
      simp only [String.toList_append, toList_intercalate_cons, List.flatMap_map]
      simp [Dialect.quoteName, Dialect.mysql]

theorem exists_of_forall₂_append {α β : Type} {R : α → β → Prop} {as bs : List α} {cs : List β}
    (h : List.Forall₂ R (as ++ bs) cs) :
    ∃ front back, cs = front ++ back ∧ List.Forall₂ R as front ∧ List.Forall₂ R bs back := by
  induction as generalizing cs with
  | nil => exact ⟨[], cs, rfl, .nil, h⟩
  | cons a as ih =>
      obtain ⟨c, cs, hc, hcs, rfl⟩ := List.forall₂_cons_left_iff.mp h
      obtain ⟨front, back, rfl, hfront, hback⟩ := ih hcs
      exact ⟨c :: front, back, rfl, .cons hc hfront, hback⟩

theorem filterMap_of_forall₂_some {α β : Type} {g : α → β} {as : List α}
    {parsed : List (Option β)} (h : List.Forall₂ (fun a b => b = some (g a)) as parsed) :
    parsed.filterMap id = as.map g := by
  induction h with
  | nil => rfl
  | cons hb _ ih =>
      rw [hb, List.map_cons, ← ih]
      rfl

theorem exists_of_forall₂_columns {columns : List Column} {parsed : List (Option Definition)}
    (h : List.Forall₂ (fun (column : Column) b =>
      ∃ written, b = some (Definition.column written) ∧ column.WrittenAs written) columns parsed) :
    ∃ written, List.Forall₂ Column.WrittenAs columns written
      ∧ parsed.filterMap id = written.map .column := by
  induction h with
  | nil => exact ⟨[], .nil, rfl⟩
  | cons hb _ ih =>
      obtain ⟨first, rfl, hfirst⟩ := hb
      obtain ⟨written, hwritten, hparsed⟩ := ih
      refine ⟨first :: written, .cons hfirst hwritten, ?_⟩
      rw [List.map_cons, ← hparsed]
      rfl

/-- What the lines are read as says what the table is. -/
theorem definedBy_of_meets {parsed : List (Option Definition)}
    (h : Meets (table.lines.map (·.2)) parsed) : table.DefinedBy (parsed.filterMap id) := by
  simp only [lines, List.map_append, List.map_map] at h
  obtain ⟨front, keys, rfl, hfront, hkeys⟩ := exists_of_forall₂_append h
  obtain ⟨columns, indexes, rfl, hcolumns, hindexes⟩ := exists_of_forall₂_append hfront
  rw [List.forall₂_map_left_iff] at hcolumns hindexes hkeys
  obtain ⟨written, hwritten, hparsed⟩ := exists_of_forall₂_columns hcolumns
  refine ⟨written, hwritten, ?_⟩
  rw [List.filterMap_append, List.filterMap_append, hparsed, filterMap_of_forall₂_some hindexes,
    filterMap_of_forall₂_some hkeys]

theorem reads_definitions (gap : List Char)
    {items : List (List Piece × (Option Definition → Prop))}
    (hne : items ≠ []) (hmeanings : items.map (·.2) = table.lines.map (·.2))
    (h : ∀ item ∈ items, item.1 ≠ [] ∧ Reads definition item.1 item.2 endsDefinition) :
    Reads definitions (commaPieces (items.map (·.1)) ++ [closePiece gap]) table.DefinedBy
      anything := by
  refine (reads_listedDefinitions hne h).map (List.filterMap id) fun parsed hparsed => ?_
  rw [hmeanings] at hparsed
  exact definedBy_of_meets hparsed

theorem accepts_ifNotExists_none : Accepts ifNotExists [] false (· ≠ .keyword .IF) :=
  (accepts_eatKind_nil (.keyword .IF)).peek (reads_pure rfl) fun _ hkind => hkind

/-- The pieces of a statement with the pieces of its definition list. -/
def statementPieces (gap : List Char) (name : String) (list : List Piece) : List Piece :=
  keywordPiece gap .CREATE :: keywordPiece [' '] .TABLE :: namePiece [' '] name
    :: openPiece [' '] :: list

theorem readsAll_statement (database : Option String) (gap : List Char) {list : List Piece}
    (hlist : Reads definitions list table.DefinedBy anything) :
    ReadsAll (statement database) (statementPieces gap table.name list)
      (fun parsed => ∃ written, parsed = .createTable written ∧ table.WrittenAs written) := by
  refine readsAll_current_bind fun start => Accepts.consAll (accepts_eatKind rfl) ?_
  refine (accepts_eatKind_nil (.keyword .TEMPORARY)).peekAll ?_ fun kind => by simp [keywordPiece]
  refine Accepts.consAll (accepts_eatKind rfl) ?_
  refine accepts_ifNotExists_none.peekAll ?_ fun kind => by simp [namePiece]
  have hname : Accepts qualifiedName [namePiece [' '] table.name] (none, table.name) (· ≠ .dot) :=
    accepts_qualifiedName rfl
  refine Reads.bindAll hname ?_ fun kind => by simp [openPiece]
  rintro _ rfl
  simp only [Option.all_none, if_true]
  refine readsAll_current_bind fun offset => ?_
  rw [if_neg (by simp [openPiece])]
  refine Accepts.consAll (accepts_expectKind rfl) ?_
  rw [← List.append_nil list]
  refine hlist.bindAll (fun definitions hdefinitions => ?_) fun _ => trivial
  intro input offset _ htokens
  refine ⟨_, input.lastStop, ⟨⟨table.name, false, false, definitions,
    ⟨((keywordPiece gap .CREATE).token start).span.start, input.lastStop⟩⟩, rfl, rfl,
    hdefinitions⟩, ?_⟩
  simp only [tokensAt_nil, List.nil_append, htokens, parse_bind, parse_get, skipRest, parse_modify,
    List.getLast?_nil, parse_pure]

theorem legible_statementPieces {gap : List Char} (hgap : ∀ c ∈ gap, Text.isBlank c = true)
    (name : String) {list : List Piece} (hlist : Legible list) :
    Legible (statementPieces gap name list) := by
  refine legible_keywordPiece _ hgap ?_ (legible_keywordPiece _ isBlank_of_mem_space ?_
    (legible_namePiece _ isBlank_of_mem_space ?_ (hlist.leftParen isBlank_of_mem_space)))
  all_goals exact delimited_of_head? rfl (by decide)

/-- A table is written as the statement that creates it. -/
theorem Writable.exists_statementPieces (h : table.Writable) {gap : List Char}
    (hgap : ∀ c ∈ gap, Text.isBlank c = true) (database : Option String) :
    ∃ pieces, spelling pieces = gap ++ (Dialect.mysql.createTable table).toList
      ∧ Legible pieces ∧ pieces ≠ []
      ∧ ReadsAll (statement database) pieces
          (fun parsed => ∃ written, parsed = .createTable written ∧ table.WrittenAs written) := by
  obtain ⟨items, hmeanings, htexts, hitems⟩ := exists_definitionItems h.writesDefinition
  obtain ⟨first, others, hlines, htext⟩ := toList_createTable h.columns_ne_nil
  have hspellings : (items.map (·.1)).map spelling
      = (first :: others).map (fun line => "\n  ".toList ++ line.toList) := by
    rw [List.map_map, ← hlines, List.map_map]
    exact htexts
  have hbody : Legible (commaPieces (items.map (·.1))) :=
    legible_commaPieces (List.forall_mem_map.mpr fun item hitem => (hitems item hitem).1)
  have hclose : Legible [closePiece ['\n']] :=
    legible_nil.rightParen (List.forall_mem_singleton.mpr (by decide))
  have hlist : Legible (commaPieces (items.map (·.1)) ++ [closePiece ['\n']]) :=
    hbody.append hclose (delimited_of_head? rfl (by decide))
  cases hpieces : items.map (·.1) with
  | nil => simp [hpieces] at hspellings
  | cons item rest =>
      have hne : items ≠ [] := by
        rintro rfl
        simp at hpieces
      have hreads := reads_definitions ['\n'] hne hmeanings fun item hitem =>
        (hitems item hitem).2
      rw [hpieces] at hspellings hlist hreads
      refine ⟨statementPieces gap table.name _, ?_, legible_statementPieces hgap _ hlist,
        by simp [statementPieces], readsAll_statement database gap hreads⟩
      rw [List.map_cons, List.map_cons, List.cons.injEq] at hspellings
      obtain ⟨hitem, hrest⟩ := hspellings
      have hcommas : rest.flatMap (fun item => ',' :: spelling item)
          = others.flatMap (fun line => ",\n  ".toList ++ line.toList) := by
        rw [← List.flatMap_map spelling (fun text => ',' :: text), hrest, List.flatMap_map]
        rfl
      simp only [statementPieces, spelling_cons, spelling_append, spelling_commaPieces, hitem,
        hcommas, htext]
      simp [keywordPiece, namePiece, openPiece, closePiece, Piece.spelling, Keyword.spelling]

end Table

end SchemaDelta
