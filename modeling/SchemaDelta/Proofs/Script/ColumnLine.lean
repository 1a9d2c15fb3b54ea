import SchemaDelta.Proofs.Parsing.ColumnType
import SchemaDelta.Proofs.Parsing.OptionRun
import SchemaDelta.Proofs.Parsing.TypeEnd
import SchemaDelta.Proofs.Script.Isolation
import SchemaDelta.Proofs.Script.Line

/-!
# Types of columns in a script

The text that is read as the type of a column is a line of a script.
-/

namespace SchemaDelta.Sql

open SchemaDelta.Sql.Parser

/-! ## Segments -/

namespace Segment

theorem isTerminator_of_endOfInput {token : Token} (h : token.kind = .endOfInput) :
    isTerminator token = true := by
  simp [isTerminator, h]

end Segment

/-! ## Lines -/

variable {text : String} {dataType : DataType} {options : List ColumnOption}

/-- A parser comes to the end of the input only behind the last token. -/
theorem Input.Follows.eq_nil {input after : Input} (h : input.Follows after)
    (htokens : ∀ token ∈ input.tokens, Segment.isTerminator token = false)
    (hkind : after.current.kind = .endOfInput) :
    after.tokens = [] ∧ input.stop.kind = .endOfInput := by
  cases hafter : after.tokens with
  | nil =>
      rw [Input.current_nil hafter, h.stop] at hkind
      exact ⟨rfl, hkind⟩
  | cons token tokens =>
      have hnot := htokens token (h.mem (hafter ▸ List.mem_cons_self))
      rw [Input.current, hafter, List.head?_cons, Option.getD_some] at hkind
      simp [Segment.isTerminator, hkind] at hnot

/-- The type and its options are read from all of the tokens. -/
def ReadsType (source : List Char) (tokens : List Token) (dataType : DataType)
    (options : List ColumnOption) : Prop :=
  ∃ (stop : Token) (after : Input), stop.kind = .endOfInput ∧ after.tokens = []
    ∧ Parser.columnType.parse ⟨source, tokens, stop, 0⟩ = (.ok (dataType, options), after)

theorem exists_lexemes_of_columnType (h : columnType text = .ok (dataType, options)) :
    ∃ (tokens : List Token) (stop : Token) (after : Input),
      lexemes text.toList = tokens.map .ok ++ [.ok stop]
        ∧ (∀ token ∈ tokens, Segment.isTerminator token = false) ∧ stop.kind = .endOfInput
        ∧ after.tokens = [] ∧ Parser.columnType.parse ⟨text.toList, tokens, stop, 0⟩
          = (.ok (dataType, options), after) := by
  obtain ⟨segment, segments, after, hsegments, hparse, hnone⟩ := exists_segment_of_columnType h
  obtain ⟨⟨offset, pieces, htokens, -, hlegible⟩, -⟩ :=
    Segment.standing_input (hsegments ▸ List.mem_cons_self)
  have hnot : ∀ token ∈ segment.tokens, Segment.isTerminator token = false := by
    intro token hmem
    refine hlegible.isTerminator offset token ?_
    rw [← htokens]
    exact hmem
  obtain ⟨middle, htype, hoptions, hkind⟩ := parse_columnType_eq_ok_iff.mp hparse
  have hfollows := (advances_dataType _ _ _ htype).trans (advances_columnOptions _ _ _ hoptions)
  obtain ⟨hnil, hend⟩ := hfollows.eq_nil hnot hkind
  have hlexError := hnone hnil
  have hinput : segment.input text.toList
      = ⟨text.toList, segment.tokens, segment.terminator, 0⟩ := by
    rw [Segment.input, hlexError]
  rw [hinput] at hparse hend
  obtain ⟨rest, hrest, -, -, hnothing⟩ :=
    (hsegments ▸ Script.segmented_segments text.toList).exists_first
  obtain rfl := hnothing hend
  rw [Segment.lexemes_of_lexError?_eq_none hlexError] at hrest
  exact ⟨segment.tokens, segment.terminator, after, hrest, hnot, hend, hnil, hparse⟩

/-- The text of the type of a column is a line, and the type is read from its tokens. -/
theorem exists_line_of_columnType (h : columnType text = .ok (dataType, options)) :
    ∃ tokens, Line text.toList tokens ∧ (∀ token ∈ tokens, Segment.isTerminator token = false)
      ∧ ReadsType text.toList tokens dataType options := by
  obtain ⟨tokens, stop, after, hlexemes, hnot, hend, hnil, hparse⟩ := exists_lexemes_of_columnType h
  obtain ⟨others, hline⟩ := exists_line (Cursor.atStart text.toList) fun lexeme hmem => by
    change lexeme ∈ lexemes text.toList at hmem
    rw [hlexemes] at hmem
    rcases List.mem_append.mp hmem with hmem | hmem
    · obtain ⟨token, -, rfl⟩ := List.mem_map.mp hmem
      exact ⟨token, rfl⟩
    · exact ⟨stop, List.mem_singleton.mp hmem⟩
  obtain rfl := hline.tokens_eq hlexemes
  exact ⟨others, hline, hnot, stop, after, hend, hnil, hparse⟩

/-- A line whose tokens are read as the type of a column is the text of one. -/
theorem columnType_of_line {tokens : List Token} (hline : Line text.toList tokens)
    (htokens : ∀ token ∈ tokens, Segment.isTerminator token = false)
    (h : ∀ stop : Token, stop.kind = .endOfInput → ∃ after,
      Parser.columnType.parse ⟨text.toList, tokens, stop, 0⟩
        = (.ok (dataType, options), after)) :
    columnType text = .ok (dataType, options) := by
  obtain ⟨stop, hkind, hlexemes⟩ := hline.ends 0
  obtain ⟨after, hparse⟩ := h stop hkind
  have hsegments : Script.segments text.toList = [⟨tokens.map .ok, stop⟩] := by
    change Segment.split (Cursor.lexemes ⟨0, text.toList⟩) = _
    rw [hlexemes, Token.map_shift_zero,
      Segment.split_append htokens (Segment.isTerminator_of_endOfInput hkind)]
    rfl
  rw [columnType_eq_run hsegments]
  exact Segment.run_of_parse hparse 0 0

/-! ## In front of what ends a column -/

/-- The tokens of a line stand alike in all sources that hold its text. -/
theorem Line.along {cs front back front' back' : List Char} {tokens more : List Token}
    {shift : Nat} {input other : Input} {stop : Token} (h : Line cs tokens)
    (hstop : input.stop = stop) (hends : other.stop.kind = .endOfInput)
    (hshift : Text.byteLength front = shift + Text.byteLength front')
    (hsource : input.source = front ++ cs ++ back)
    (hsource' : other.source = front' ++ cs ++ back')
    (htokens : input.tokens = tokens.map (Token.shift (Text.byteLength front)) ++ more)
    (htokens' : other.tokens = tokens.map (Token.shift (Text.byteLength front'))) :
    input.Along shift more stop other := by
  refine ⟨hstop, hends, ?_, ?_⟩
  · rw [htokens, htokens', Token.map_shift_map_shift, hshift]
  · intro first hfirst last hlast
    rw [htokens'] at hfirst hlast
    obtain ⟨first, -, rfl⟩ := List.mem_map.mp hfirst
    obtain ⟨last, hmem, rfl⟩ := List.mem_map.mp hlast
    have hle := h.stop_le last hmem
    rw [hsource, hsource', Span.text, Span.text]
    simp only [Token.shift, Span.shift, ← Nat.add_assoc, ← hshift]
    rw [Text.slice_within front cs back _ hle, Text.slice_within front' cs back' _ hle]

theorem Line.along_text {cs front back : List Char} {tokens more : List Token}
    {stop stop' : Token} (h : Line cs tokens) (input : Input) (hstop : input.stop = stop')
    (hend : stop.kind = .endOfInput) (hsource : input.source = front ++ cs ++ back)
    (htokens : input.tokens = tokens.map (Token.shift (Text.byteLength front)) ++ more)
    (last : Nat) : input.Along (Text.byteLength front) more stop' ⟨cs, tokens, stop, last⟩ := by
  have hself : cs = [] ++ cs ++ [] := (List.append_nil cs).symm
  have hzero : tokens = tokens.map (Token.shift (Text.byteLength [])) := by
    rw [Text.byteLength_nil, Token.map_shift_zero]
  exact h.along hstop hend rfl hsource hself htokens hzero

theorem DataType.endsBefore_of_endsOptions {kind : TokenKind} (h : endsOptions kind = true)
    (dataType : DataType) : dataType.EndsBefore kind := by
  intro _
  cases kind <;> simp [endsOptions] at h <;> simp [isWord]

namespace Parser

theorem not_continues_of_endsOptions {kind : TokenKind} (h : endsOptions kind = true)
    (kinds : List TokenKind) : ¬continues kinds kind := by
  unfold continues
  cases kind <;> simp [endsOptions] at h <;> split <;> simp [afterLiteral, isStorage, isWord]

theorem exists_readsOptions_of_columnType {input after : Input}
    (hparse : Parser.columnType.parse input = (.ok (dataType, options), after))
    (hstop : Segment.isTerminator input.stop = true) :
    ∃ middle, Parser.dataType.parse input = (.ok dataType, middle)
      ∧ ReadsOptions middle options after ∧ after.current.kind = .endOfInput := by
  obtain ⟨middle, htype, hoptions, hend⟩ := parse_columnType_eq_ok_iff.mp hparse
  rw [← (advances_dataType _ _ _ htype).stop] at hstop
  exact ⟨middle, htype, ((parse_columnOptions_eq_ok_iff hstop).mp hoptions).1, hend⟩

/-- The type and its options end in front of the token. -/
theorem along_columnType {shift : Nat} {input other next : Input} {back : List Token} {stop : Token}
    (hparse : Parser.columnType.parse other = (.ok (dataType, options), next))
    (h : input.Along shift back stop other) (hstop : Segment.isTerminator stop = true)
    (hkind : endsOptions (Input.kindBehind back stop) = true) :
    ∃ middle after, Parser.dataType.parse input = (.ok dataType, middle)
      ∧ columnOptions.parse middle = (.ok options, after) ∧ after.Along shift back stop next := by
  obtain ⟨between, htype, hreads, hend⟩ :=
    exists_readsOptions_of_columnType hparse (Segment.isTerminator_of_endOfInput h.ends)
  obtain ⟨middle, htype', hmiddle⟩ :=
    along_dataType htype h fun _ => dataType.endsBefore_of_endsOptions hkind
  obtain ⟨after, hreads', hafter⟩ := hreads.along hmiddle fun _ _ _ _ _ _ _ _ =>
    not_continues_of_endsOptions hkind _
  have hends : endsOptions after.current.kind = true := by
    rcases hafter.kind_current with heq | ⟨-, hbehind, -⟩
    · rw [heq, hend]
      rfl
    · rw [hbehind]
      exact hkind
  refine ⟨middle, after, htype', (parse_columnOptions_eq_ok_iff ?_).mpr ⟨hreads', hends⟩, hafter⟩
  rw [(advances_dataType _ _ _ htype').stop, h.stop]
  exact hstop

theorem parse_columnDef {input middle after : Input} {name : String}
    (hname : nameOf? input.current = some name)
    (htype : Parser.dataType.parse input.advance = (.ok dataType, middle))
    (hoptions : columnOptions.parse middle = (.ok options, after)) :
    columnDef.parse input
      = (.ok ⟨name, dataType, options, ⟨input.current.span.start, after.lastStop⟩⟩, after) := by
  have hread : Parser.name.parse input = (.ok name, input.advance) := by
    simp only [Parser.name, parse_bind, parse_current, hname, parse_advance, parse_pure]
  simp only [columnDef, parse_bind, parse_current, hread, htype, hoptions, parse_get, parse_pure]

theorem parse_definition_column {input middle after : Input} {name : String}
    (hname : input.current.kind = .quoted name)
    (htype : Parser.dataType.parse input.advance = (.ok dataType, middle))
    (hoptions : columnOptions.parse middle = (.ok options, after)) :
    definition.parse input = (.ok (some (.column
      ⟨name, dataType, options, ⟨input.current.span.start, after.lastStop⟩⟩)), after) := by
  have hcolumn := parse_columnDef (by rw [nameOf?, hname]) htype hoptions
  have hconstraint : constraintName?.parse input = (.ok none, input) := by
    simp [constraintName?, parse_bind, eatKeyword, eatKind, parse_eat, hname, parse_pure]
  rw [definition, parse_bind, hconstraint]
  dsimp only
  rw [definitionBody, parse_bind, parse_current]
  dsimp only
  rw [hname]
  dsimp only [definitionBody.uniqueKind?, Option.isSome_none]
  rw [if_neg (by simp), if_neg (by simp), parse_bind, hcolumn]
  rfl

theorem parse_definitions_column {input middle after : Input} {name : String}
    (hname : input.current.kind = .quoted name)
    (htype : Parser.dataType.parse input.advance = (.ok dataType, middle))
    (hoptions : columnOptions.parse middle = (.ok options, after))
    (hclose : after.current.kind = .rightParen) :
    definitions.parse input = (.ok [.column
      ⟨name, dataType, options, ⟨input.current.span.start, after.lastStop⟩⟩], after.advance) := by
  have hend : ∀ entry : Option Definition,
      (listEnd entry).parse after = (.ok (entry, false), after.advance) := fun entry =>
    parse_listEnd_eq_ok_iff.mpr ⟨.inr ⟨hclose, rfl⟩, rfl⟩
  have hlisted : ∀ entry, definition.parse input = (.ok entry, after) →
      listedDefinition.parse input = (.ok (entry, false), after.advance) := by
    intro entry hentry
    change (definition >>= listEnd).parse input = _
    rw [parse_bind, hentry]
    exact hend entry
  have hloop := parse_repeatWhile_false (parse_quotingDefinition_eq_ok_iff.mpr
    (hlisted _ (parse_definition_column hname htype hoptions)))
  rw [definitions, parse_bind, hloop]
  rfl

/-- A table without a qualifier is created whatever database is inspected. -/
theorem parse_createTable (database : Option String) (start : Nat) (temporary : Bool)
    {input named opened after : Input} {name : String} {list : List Definition}
    (hexists : input.current.kind ≠ .keyword .IF)
    (hname : qualifiedName.parse input = (.ok (none, name), named))
    (hopen : (expectKind .leftParen).parse named = (.ok (), opened))
    (hlist : definitions.parse opened = (.ok list, after)) :
    ∃ rest, (createTable database start temporary).parse input
      = (.ok (.createTable {
          name, temporary
          ifNotExists := false
          definitions := list
          span := ⟨start, after.lastStop⟩ }), rest) := by
  obtain ⟨rest, hskip, -⟩ := parse_skipRest after
  have hexists : ifNotExists.parse input = (.ok false, input) := by
    simp [ifNotExists, parse_bind, eatKeyword, eatKind, parse_eat, hexists, parse_pure]
  have hkind := (of_parse_expectKind hopen).1
  refine ⟨rest, ?_⟩
  rw [createTable, parse_bind, hexists]
  dsimp only
  rw [parse_bind, hname]
  dsimp only
  rw [Option.all_none, if_pos rfl, parse_bind, parse_current]
  dsimp only
  rw [if_neg (by simp [hkind]), parse_bind, hopen]
  dsimp only
  rw [parse_bind, hlist]
  dsimp only
  rw [parse_bind, parse_get]
  dsimp only
  rw [parse_bind, hskip]
  rfl

theorem parse_statement_column (database : Option String) {source : List Char}
    {create table name opening column closing stop : Token} {tokens : List Token}
    {tableName columnName : String} {middle after : Input}
    (hcreate : create.kind = .keyword .CREATE) (htable : table.kind = .keyword .TABLE)
    (hname : name.kind = .quoted tableName) (hopening : opening.kind = .leftParen)
    (hcolumn : column.kind = .quoted columnName)
    (htype : Parser.dataType.parse ⟨source, tokens, stop, column.span.stop⟩
      = (.ok dataType, middle))
    (hoptions : columnOptions.parse middle = (.ok options, after))
    (hafter : after.tokens = [closing]) (hclosing : closing.kind = .rightParen) :
    ∃ rest, (Parser.statement database).parse
      ⟨source, create :: table :: name :: opening :: column :: tokens, stop, 0⟩
        = (.ok (.createTable {
            name := tableName
            temporary := false
            ifNotExists := false
            definitions := [.column
              ⟨columnName, dataType, options, ⟨column.span.start, after.lastStop⟩⟩]
            span := ⟨create.span.start, closing.span.stop⟩ }), rest) := by
  have hclose : after.current.kind = .rightParen := by
    rw [Input.current, hafter]
    exact hclosing
  have hlast : after.advance.lastStop = closing.span.stop := by
    rw [Input.advance, hafter]
  have hlist : definitions.parse ⟨source, column :: tokens, stop, opening.span.stop⟩ = _ :=
    parse_definitions_column hcolumn htype hoptions hclose
  have hnames : qualifiedName.parse ⟨source, name :: opening :: column :: tokens, stop,
      table.span.stop⟩ = (.ok (none, tableName), ⟨source, opening :: column :: tokens, stop,
        name.span.stop⟩) := by
    simp [qualifiedName, Parser.name, nameOf?, parse_bind, parse_current, eatKind, parse_eat, hname,
      hopening, parse_advance, parse_pure]
  have hopen : (expectKind .leftParen).parse ⟨source, opening :: column :: tokens, stop,
      name.span.stop⟩ = (.ok (), ⟨source, column :: tokens, stop, opening.span.stop⟩) := by
    simp [expectKind, parse_bind, eatKind, parse_eat, hopening, parse_pure]
  obtain ⟨rest, hrest⟩ :=
    parse_createTable database create.span.start false (by simp [hname]) hnames hopen hlist
  refine ⟨rest, ?_⟩
  rw [hlast] at hrest
  rw [parse_statement, Input.current_cons, if_pos hcreate, Input.advance_cons, creation, parse_bind,
    eatKeyword, eatKind, parse_eat, Input.current_cons, htable, if_neg (by simp)]
  dsimp only
  rw [parse_bind, eatKeyword, eatKind, parse_eat, Input.current_cons, htable, if_pos (by simp)]
  exact hrest

end Parser

/-! ## Scripts with one column -/

theorem Line.exists_lexemes {cs : List Char} {tokens : List Token} (h : Line cs tokens)
    {front back : List Piece} (hfront : Legible front) (hback : Legible back) :
    ∃ stop : Token, stop.kind = .endOfInput
      ∧ lexemes (spelling front ++ [' '] ++ cs ++ '\n' :: spelling back)
        = (tokensAt 0 front
            ++ (tokens.map (Token.shift (Text.byteLength (spelling front ++ [' '])))
              ++ tokensAt (Text.byteLength (spelling front ++ [' '] ++ cs ++ ['\n'])) back)).map .ok
          ++ [.ok stop] := by
  have hnone : ∀ c ∈ ([] : List Char), Text.isBlank c = true := by simp
  obtain ⟨stop, hstop, hkind⟩ := Cursor.lexemes_blank
    (Text.byteLength (spelling front ++ [' '] ++ cs ++ ['\n']) + Text.byteLength (spelling back))
    hnone
  have hspace : Delimited (' ' :: (cs ++ '\n' :: spelling back)) := by simp [delimiters]
  have hstart : 0 + Text.byteLength (spelling front) + Text.byteLength [' ']
      = Text.byteLength (spelling front ++ [' ']) := by
    rw [Text.byteLength_append, Nat.zero_add]
  have hbehind : Text.byteLength (spelling front ++ [' ']) + Text.byteLength (cs ++ ['\n'])
      = Text.byteLength (spelling front ++ [' '] ++ cs ++ ['\n']) := by
    rw [List.append_assoc _ cs, Text.byteLength_append _ (cs ++ ['\n'])]
  have hblank : Cursor.lexemes ⟨0 + Text.byteLength (spelling front),
      ' ' :: (cs ++ '\n' :: spelling back)⟩ = Cursor.lexemes
        ⟨Text.byteLength (spelling front ++ [' ']), cs ++ '\n' :: spelling back⟩ := by
    rw [← hstart]
    exact Cursor.lexemes_append_blanks _ isBlank_of_mem_space
  have hlast := Cursor.lexemes_spelling hback delimited_nil
    (Text.byteLength (spelling front ++ [' '] ++ cs ++ ['\n']))
  rw [List.append_nil, hstop] at hlast
  refine ⟨stop, hkind, ?_⟩
  have hsource : lexemes (spelling front ++ [' '] ++ cs ++ '\n' :: spelling back)
      = Cursor.lexemes ⟨0, spelling front ++ ' ' :: (cs ++ '\n' :: spelling back)⟩ := by
    simp [lexemes, Cursor.atStart]
  rw [hsource, Cursor.lexemes_spelling hfront hspace 0]
  rw [hblank, h.goesOn, hbehind, hlast]
  simp only [List.map_append, List.append_assoc]

theorem Script.statements_of_lexemes {source : String} {database : Option String}
    {tokens : List Token} {stop : Token} {statement : Statement} {after : Input}
    (hlexemes : lexemes source.toList = tokens.map .ok ++ [.ok stop]) (hne : tokens ≠ [])
    (htokens : ∀ token ∈ tokens, Segment.isTerminator token = false)
    (hkind : stop.kind = .endOfInput)
    (hparse : (Parser.statement database).parse ⟨source.toList, tokens, stop, 0⟩
      = (.ok statement, after)) :
    statements source database = [.ok statement] := by
  have hsegments : segments source.toList = [⟨tokens.map .ok, stop⟩] := by
    rw [segments, hlexemes,
      Segment.split_append htokens (Segment.isTerminator_of_endOfInput hkind)]
    rfl
  rw [statements_eq_readFrom, hsegments, readFrom_ok (by simpa using hne) (Segment.run_of_parse hparse _ _)]
  rfl

/-- The front of a script in which a column `c` is the only one of a table `t`. -/
def columnFront : List Piece :=
  Table.statementPieces [] "t" [namePiece [] "c"]

theorem legible_columnFront : Legible columnFront :=
  Table.legible_statementPieces (by simp) "t"
    (legible_namePiece "c" (by simp) delimited_nil legible_nil)

theorem spelling_columnFront :
    spelling columnFront ++ [' '] = "CREATE TABLE \x60t\x60 (\x60c\x60 ".toList := by
  decide

theorem exists_tokensAt_columnFront : ∃ create table name opening column : Token,
    tokensAt 0 columnFront = [create, table, name, opening, column]
      ∧ create.kind = .keyword .CREATE ∧ table.kind = .keyword .TABLE ∧ name.kind = .quoted "t"
      ∧ opening.kind = .leftParen ∧ column.kind = .quoted "c" :=
  ⟨_, _, _, _, _, rfl, rfl, rfl, rfl, rfl, rfl⟩

/-- The text that is read as the type of a column is read as the same type, with the same
options, where it stands in the definition of a column. -/
theorem statements_columnType (h : columnType text = .ok (dataType, options))
    (database : Option String) :
    ∃ place span, Script.statements ("CREATE TABLE \x60t\x60 (\x60c\x60 " ++ text ++ "\n)") database
      = [.ok (.createTable {
          name := "t"
          temporary := false
          ifNotExists := false
          definitions := [.column ⟨"c", dataType, options, place⟩]
          span })] := by
  obtain ⟨tokens, hline, htokens, stop, next, hend, hnil, hparse⟩ := exists_line_of_columnType h
  have hclose : Legible [closePiece []] := legible_nil.rightParen (by simp)
  obtain ⟨stop', hkind, hlexemes⟩ := hline.exists_lexemes legible_columnFront hclose
  have hsource : ("CREATE TABLE \x60t\x60 (\x60c\x60 " ++ text ++ "\n)").toList
      = spelling columnFront ++ [' '] ++ text.toList ++ '\n' :: spelling [closePiece []] := by
    rw [String.toList_append, String.toList_append, spelling_columnFront]
    rfl
  obtain ⟨create, table, name, opening, column, hfront, hcreate, htable, hname, hopening,
    hcolumn⟩ := exists_tokensAt_columnFront
  -- The closing parenthesis comes behind the tokens of the text, and ends type and options.
  have halong := hline.along_text
    ⟨spelling columnFront ++ [' '] ++ text.toList ++ '\n' :: spelling [closePiece []],
      tokens.map (Token.shift (Text.byteLength (spelling columnFront ++ [' '])))
        ++ tokensAt (Text.byteLength (spelling columnFront ++ [' '] ++ text.toList ++ ['\n']))
          [closePiece []],
      stop', column.span.stop⟩ rfl hend rfl rfl 0
  obtain ⟨middle, after, htype, hoptions, hafter⟩ :=
    along_columnType hparse halong (Segment.isTerminator_of_endOfInput hkind) rfl
  have hlast : after.tokens = _ := hafter.tokens
  rw [hnil] at hlast
  obtain ⟨rest, hstatement⟩ := parse_statement_column database hcreate htable hname hopening hcolumn
    htype hoptions hlast rfl
  rw [← hsource] at hlexemes hstatement
  have hread := Script.statements_of_lexemes hlexemes (by simp [hfront]) ?_ hkind
    (by rw [hfront]; exact hstatement)
  · exact ⟨_, _, hread⟩
  · intro token hmem
    rcases List.mem_append.mp hmem with hmem | hmem
    · exact legible_columnFront.isTerminator 0 token hmem
    · rcases List.mem_append.mp hmem with hmem | hmem
      · obtain ⟨other, hother, rfl⟩ := List.mem_map.mp hmem
        exact htokens other hother
      · exact hclose.isTerminator _ token hmem

/-- A type of two words, options that could go on, and a comment up to the end of the text. -/
theorem statements_columnType_comment :
    columnType "double PRECISION UNIQUE AS (f(1, '; )')) DEFAULT _utf8'x' -- ; )"
        = .ok (⟨"double PRECISION", .none⟩,
          [.unique, .generated "(f(1, '; )'))", .default (.string "x")])
      ∧ ∃ place span, Script.statements ("CREATE TABLE \x60t\x60 (\x60c\x60 "
          ++ "double PRECISION UNIQUE AS (f(1, '; )')) DEFAULT _utf8'x' -- ; )" ++ "\n)") none
        = [.ok (.createTable {
            name := "t"
            temporary := false
            ifNotExists := false
            definitions := [.column ⟨"c", ⟨"double PRECISION", .none⟩,
              [.unique, .generated "(f(1, '; )'))", .default (.string "x")], place⟩]
            span })] := by
  have hread : columnType "double PRECISION UNIQUE AS (f(1, '; )')) DEFAULT _utf8'x' -- ; )"
      = .ok (⟨"double PRECISION", .none⟩,
        [.unique, .generated "(f(1, '; )'))", .default (.string "x")]) := by
    rw [columnType_of_toList String.toList_ofList]
    decide +kernel
  exact ⟨hread, statements_columnType hread none⟩

end SchemaDelta.Sql
