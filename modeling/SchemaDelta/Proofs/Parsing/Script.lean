import SchemaDelta.Proofs.Parsing.Reader
import SchemaDelta.Proofs.Parsing.Table

/-!
# Scripts are read back

A script that creates tables is read as the statements that create them, one for
each table and no other.
-/

namespace SchemaDelta.Sql

open SchemaDelta.Sql.Parser

/-! ## Segments -/

theorem Segment.split_append {tokens : List Token} {terminator : Token}
    (htokens : ∀ token ∈ tokens, isTerminator token = false)
    (hterminator : isTerminator terminator = true) (lexemes : List Lexeme) :
    split (tokens.map .ok ++ .ok terminator :: lexemes)
      = ⟨tokens.map .ok, terminator⟩ :: split lexemes := by
  induction tokens with
  | nil => simp [split, hterminator]
  | cons token tokens ih =>
      have hrest := ih fun token hmem => htokens token (by simp [hmem])
      have hfirst := htokens token (by simp)
      rw [List.map_cons, List.cons_append, split, if_neg (by simp [hfirst]), hrest, push]

theorem Segment.tokens_ok (tokens : List Token) (terminator : Token) :
    Segment.tokens ⟨tokens.map .ok, terminator⟩ = tokens := by
  unfold Segment.tokens
  induction tokens with
  | nil => rfl
  | cons token tokens ih => rw [List.map_cons, tokens.go, ih]

theorem Segment.lexError?_ok (tokens : List Token) (terminator : Token) :
    Segment.lexError? ⟨tokens.map .ok, terminator⟩ = none := by
  simp [Segment.lexError?]

theorem Legible.isTerminator {pieces : List Piece} (h : Legible pieces) (offset : Nat) :
    ∀ token ∈ tokensAt offset pieces, Segment.isTerminator token = false := by
  induction pieces generalizing offset with
  | nil => simp
  | cons piece pieces ih =>
      rintro token (_ | ⟨_, hmem⟩)
      · simp [Segment.isTerminator, h.1]
      · exact ih h.2.2 _ token hmem

/-- A segment without a lexical error is run on its tokens. -/
theorem Segment.run_of_parse {α : Type} {source : List Char} {parser : Parser α}
    {tokens : List Token} {terminator : Token} {a : α} {after : Input}
    (h : parser.parse ⟨source, tokens, terminator, 0⟩ = (.ok a, after)) (index start : Nat) :
    Segment.run source parser index start ⟨tokens.map .ok, terminator⟩ = .ok a := by
  have hinput : Segment.input source ⟨tokens.map .ok, terminator⟩
      = ⟨source, tokens, terminator, 0⟩ := by
    rw [Segment.input, Segment.tokens_ok, Segment.lexError?_ok]
  have hrun : parser.run ⟨source, tokens, terminator, 0⟩ = (.ok a, after) := h
  rw [Segment.run, hinput, Segment.lexError?_ok, hrun]
  obtain ⟨_, tokens, _, _⟩ := after
  cases tokens <;> rfl

/-- A segment of nothing but pieces is read by a parser that reads all of them. -/
theorem Segment.run_of_readsAll {α : Type} {source : List Char} {parser : Parser α}
    {pieces : List Piece} {Q : α → Prop} {offset : Nat} (h : ReadsAll parser pieces Q)
    (hstands : StandsAt source offset pieces) (terminator : Token) (index start : Nat) :
    ∃ a, Q a ∧ Segment.run source parser index start
      ⟨(tokensAt offset pieces).map .ok, terminator⟩ = .ok a := by
  obtain ⟨a, last, ha, hparse⟩ := h ⟨source, [], terminator, 0⟩ offset hstands rfl
  rw [List.append_nil] at hparse
  exact ⟨a, ha, Segment.run_of_parse hparse index start⟩

theorem Script.readFrom_ok {source : List Char} {database : Option String} {index : Nat}
    {segment : Segment} {segments : List Segment} {statement : Statement}
    (hne : segment.lexemes ≠ [])
    (hrun : segment.run source (Parser.statement database) index (segment.start source)
      = .ok statement) :
    readFrom source database index false (segment :: segments)
      = .ok statement :: readFrom source database (index + 1) false segments := by
  have hempty : segment.lexemes.isEmpty = false := List.isEmpty_eq_false_iff.mpr hne
  simp only [readFrom, hempty, Bool.false_eq_true, if_false, Bool.false_and, hrun]

/-! ## Lexemes -/

theorem Cursor.lexemes_semicolon (offset : Nat) (rest : List Char) :
    lexemes ⟨offset, ';' :: rest⟩
      = .ok (Piece.token ⟨[], .semicolon, [';']⟩ offset)
        :: lexemes ⟨offset + Text.byteLength [';'], rest⟩ := by
  have hread : Piece.ReadBefore ⟨[], .semicolon, [';']⟩ rest :=
    Piece.readBefore (by simp) rfl rfl
  have hnext := hread offset
  change Cursor.next ⟨offset, ';' :: rest⟩ = _ at hnext
  rw [lexemes_of_not_isEnd, hnext]
  · rfl
  · rw [hnext]
    rfl

theorem Cursor.lexemes_blank (offset : Nat) {gap : List Char}
    (hgap : ∀ c ∈ gap, Text.isBlank c = true) :
    ∃ token : Token, lexemes ⟨offset, gap⟩ = [.ok token] ∧ token.kind = .endOfInput := by
  have hblanks := skipBlanks_eq offset (b := []) hgap rfl
  rw [List.append_nil] at hblanks
  have hskip : skipGap ⟨offset, gap⟩ = .ok ⟨offset + Text.byteLength gap, []⟩ := by
    rw [skipGap_of_absent, hblanks]
    rw [hblanks]
    rfl
  have hnext : (next ⟨offset, gap⟩).1
      = .ok ⟨.endOfInput, .point (offset + Text.byteLength gap), ""⟩ := by
    rw [next, hskip]
    rfl
  refine ⟨⟨.endOfInput, .point (offset + Text.byteLength gap), ""⟩, ?_, rfl⟩
  rw [lexemes_of_isEnd (by rw [hnext]; rfl), hnext]

/-- A source of nothing but pieces is one segment. -/
theorem Script.exists_segments_spelling {pieces : List Piece} (h : Legible pieces) :
    ∃ stop : Token, stop.kind = .endOfInput
      ∧ segments (spelling pieces) = [⟨(tokensAt 0 pieces).map .ok, stop⟩] := by
  have hnone : ∀ c ∈ ([] : List Char), Text.isBlank c = true := by simp
  obtain ⟨stop, hstop, hkind⟩ :=
    Cursor.lexemes_blank (0 + Text.byteLength (spelling pieces)) hnone
  have hlexemes := Cursor.lexemes_spelling h delimited_nil 0
  rw [List.append_nil, hstop] at hlexemes
  refine ⟨stop, hkind, ?_⟩
  change Segment.split (Cursor.lexemes ⟨0, spelling pieces⟩) = _
  rw [hlexemes, Segment.split_append (h.isTerminator 0) (by simp [Segment.isTerminator, hkind])]
  rfl

end SchemaDelta.Sql

namespace SchemaDelta

open Sql Sql.Parser

/-! ## Scripts that create tables -/

/-- The statements that create tables, each with a semicolon and a line break. -/
def creationText (tables : List Table) : List Char :=
  tables.flatMap fun table => (Dialect.mysql.createTable table).toList ++ [';', '\n']

/-- A statement was read that creates the table. -/
def Table.ReadAs (table : Table) (result : Except StatementError Statement) : Prop :=
  ∃ written, result = .ok (.createTable written) ∧ table.WrittenAs written

/-- From a place behind a statement on, the tables are read one by one. -/
theorem readFrom_creationText {tables : List Table} (h : ∀ table ∈ tables, table.Writable)
    (database : Option String) {gap : List Char} (hgap : ∀ c ∈ gap, Text.isBlank c = true)
    (front : List Char) (index : Nat) :
    List.Forall₂ Table.ReadAs tables
      (Script.readFrom (front ++ (gap ++ creationText tables)) database index false
        (Segment.split (Cursor.lexemes ⟨Text.byteLength front, gap ++ creationText tables⟩))) := by
  induction tables generalizing gap front index with
  | nil =>
      obtain ⟨token, hlexemes, hkind⟩ := Cursor.lexemes_blank (Text.byteLength front) hgap
      have hsplit : Segment.split [.ok token] = [⟨[], token⟩] := by
        simp [Segment.split, Segment.isTerminator, hkind]
      simp only [creationText, List.flatMap_nil, List.append_nil, hlexemes, hsplit,
        Script.readFrom, List.isEmpty_nil, if_true]
      exact .nil
  | cons table tables ih =>
      obtain ⟨pieces, hspelling, hlegible, hne, hreads⟩ :=
        (h table (by simp)).exists_statementPieces hgap database
      have htext : gap ++ creationText (table :: tables)
          = spelling pieces ++ ';' :: (['\n'] ++ creationText tables) := by
        simp [creationText, hspelling]
      have hdelimited : Delimited (';' :: (['\n'] ++ creationText tables)) := by
        simp [delimiters]
      rw [htext, Cursor.lexemes_spelling hlegible hdelimited, Cursor.lexemes_semicolon,
        Segment.split_append (hlegible.isTerminator _) rfl]
      have hstands : StandsAt (front ++ (spelling pieces ++ ';' :: (['\n'] ++ creationText tables)))
          (Text.byteLength front) pieces :=
        ⟨front, ';' :: (['\n'] ++ creationText tables), by simp, rfl⟩
      obtain ⟨statement, hstatement, hrun⟩ := Segment.run_of_readsAll hreads hstands
        (Piece.token ⟨[], .semicolon, [';']⟩
          (Text.byteLength front + Text.byteLength (spelling pieces))) index _
      have hlexemes : ((tokensAt (Text.byteLength front) pieces).map Except.ok : List Lexeme)
          ≠ [] := by
        cases pieces with
        | nil => exact absurd rfl hne
        | cons piece pieces => simp
      rw [Script.readFrom_ok hlexemes hrun]
      have hnewline : ∀ c ∈ ['\n'], Text.isBlank c = true :=
        List.forall_mem_singleton.mpr (by decide)
      have hrest := ih (fun table hmem => h table (by simp [hmem])) hnewline
        (front ++ spelling pieces ++ [';']) (index + 1)
      simp only [Text.byteLength_append, List.append_assoc, List.cons_append, List.nil_append,
        Nat.add_assoc] at hrest ⊢
      obtain ⟨written, rfl, hwritten⟩ := hstatement
      exact .cons ⟨written, rfl, hwritten⟩ hrest

/-- The script for tables that are all new is read as the statements that create them. -/
theorem statements_creation {tables : List Table} (h : ∀ table ∈ tables, table.Writable)
    (script : String) (hscript : script.toList = creationText tables) (database : Option String) :
    List.Forall₂ Table.ReadAs tables (Script.statements script database) := by
  have hnone : ∀ c ∈ [], Text.isBlank c = true := by simp
  have hread := readFrom_creationText h database hnone [] 0
  rw [List.nil_append, List.nil_append, ← hscript] at hread
  rw [Script.statements_eq_readFrom]
  exact hread

end SchemaDelta
