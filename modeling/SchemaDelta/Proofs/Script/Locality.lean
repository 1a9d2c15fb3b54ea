import SchemaDelta.Proofs.Parsing.Extent
import SchemaDelta.Proofs.Parsing.Script

/-!
# Statements are read by themselves

The statements of a script stand one behind the other, and the text of a statement that
creates a table, read as a script of its own, gives the same table.  So a table depends
neither on the statements around it nor on its options, which are not part of its text.
-/

namespace SchemaDelta.Sql

/-! ## Tokens of pieces -/

theorem exists_of_tokensAt_eq_append {offset : Nat} {pieces : List Piece}
    {front back : List Token} (h : tokensAt offset pieces = front ++ back) :
    ∃ ps qs, pieces = ps ++ qs ∧ front = tokensAt offset ps
      ∧ back = tokensAt (offset + Text.byteLength (spelling ps)) qs := by
  induction front generalizing offset pieces with
  | nil => exact ⟨[], pieces, rfl, rfl, h.symm⟩
  | cons token front ih =>
      cases pieces with
      | nil => cases h
      | cons piece pieces =>
          rw [tokensAt_cons, List.cons_append, List.cons.injEq] at h
          obtain ⟨rfl, h⟩ := h
          obtain ⟨ps, qs, rfl, rfl, rfl⟩ := ih h
          exact ⟨piece :: ps, qs, rfl, rfl, by simp [Nat.add_assoc]⟩

theorem getLast?_tokensAt (offset : Nat) {pieces : List Piece} (hne : pieces ≠ []) :
    ∃ last, (tokensAt offset pieces).getLast? = some last
      ∧ last.span.stop = offset + Text.byteLength (spelling pieces) := by
  induction pieces generalizing offset with
  | nil => exact absurd rfl hne
  | cons piece pieces ih =>
      cases pieces with
      | nil => exact ⟨piece.token offset, rfl, by simp [Piece.token]⟩
      | cons other pieces =>
          obtain ⟨last, hlast, hstop⟩ := ih (offset + Text.byteLength piece.spelling) (by simp)
          refine ⟨last, ?_, by rw [hstop]; simp [Nat.add_assoc]⟩
          rw [tokensAt_cons, List.getLast?_cons, hlast]
          rfl

theorem stop_le_of_mem_tokensAt {offset : Nat} {pieces : List Piece} :
    ∀ token ∈ tokensAt offset pieces,
      token.span.stop ≤ offset + Text.byteLength (spelling pieces) := by
  induction pieces generalizing offset with
  | nil => simp
  | cons piece pieces ih =>
      intro token hmem
      rw [spelling_cons, Text.byteLength_append]
      rcases List.mem_cons.mp hmem with rfl | hmem
      · exact Nat.add_le_add_left (Nat.le_add_right _ _) _
      · rw [← Nat.add_assoc]
        exact ih token hmem

/-! ## Places in a source -/

/-- The span is that of some text of the source. -/
def Span.Covers (span : Span) (source : List Char) : Prop :=
  ∃ front text back, text ≠ [] ∧ source = front ++ text ++ back
    ∧ span = ⟨Text.byteLength front, Text.byteLength (front ++ text)⟩

/-- The tokens stand one behind the other, from the offset on. -/
structure OrderedFrom (offset : Nat) (tokens : List Token) : Prop where
  ordered : tokens.Pairwise fun first second => first.span.stop ≤ second.span.start
  from_le : ∀ token ∈ tokens, offset ≤ token.span.start

theorem OrderedFrom.of_sublist {offset other : Nat} {tokens others : List Token}
    (h : OrderedFrom other others) (hsublist : tokens.Sublist others) (hle : offset ≤ other) :
    OrderedFrom offset tokens :=
  ⟨h.ordered.sublist hsublist, fun token hmem => hle.trans (h.from_le token (hsublist.mem hmem))⟩

/-- The token of a lexeme, unless that is an error or the end of the input. -/
def Lexeme.token? : Lexeme → Option Token
  | .ok token => if token.kind = .endOfInput then none else some token
  | .error _ => none

namespace Cursor

def tokens (cursor : Cursor) : List Token :=
  cursor.lexemes.filterMap Lexeme.token?

variable {cursor : Cursor}

theorem tokens_of_isEnd (h : cursor.next.1.isEnd = true) : cursor.tokens = [] := by
  rw [tokens, lexemes_of_isEnd h]
  cases hnext : cursor.next.1 with
  | error error => rfl
  | ok token =>
      have hkind : token.kind = .endOfInput := by simpa [hnext, Lexeme.isEnd] using h
      simp [Lexeme.token?, hkind]

/-- The first token, if the lexeme is one, is that of a piece. -/
theorem tokens_of_not_isEnd (h : cursor.next.1.isEnd = false) :
    (∃ error, cursor.next.1 = .error error ∧ cursor.tokens = cursor.next.2.tokens) ∨
      ∃ piece : Piece, piece.kind ≠ .endOfInput ∧
        cursor.next.1 = .ok (piece.token cursor.offset) ∧
        cursor.rest = piece.spelling ++ cursor.next.2.rest ∧
        cursor.next.2.offset = cursor.offset + Text.byteLength piece.spelling ∧
        Whole piece.kind piece.text ∧ (∀ b, Continues cursor.next.2.rest b → piece.ReadBefore b) ∧
        cursor.tokens = piece.token cursor.offset :: cursor.next.2.tokens := by
  rw [tokens, lexemes_of_not_isEnd h]
  cases hnext : cursor.next.1 with
  | error error => exact .inl ⟨error, rfl, rfl⟩
  | ok token =>
      have hkind : token.kind ≠ .endOfInput := by simpa [hnext, Lexeme.isEnd] using h
      obtain ⟨piece, hrest, rfl, hoffset, hwhole, hread⟩ :=
        next_continues (Prod.ext hnext rfl) hkind
      refine .inr ⟨piece, hkind, rfl, hrest, hoffset, hwhole, hread, ?_⟩
      rw [List.filterMap_cons, Lexeme.token?, if_neg hkind]
      rfl

theorem offset_le_next (cursor : Cursor) : cursor.offset ≤ cursor.next.2.offset := by
  obtain ⟨front, -, hoffset⟩ := cursor.exists_front_next
  omega

/-- The tokens stand one behind the other. -/
theorem orderedFrom_tokens (cursor : Cursor) : OrderedFrom cursor.offset cursor.tokens := by
  fun_induction lexemes cursor with
  | case1 cursor hend =>
      rw [tokens_of_isEnd hend]
      exact ⟨.nil, List.forall_mem_nil _⟩
  | case2 cursor hend ih =>
      have hle := cursor.offset_le_next
      rcases tokens_of_not_isEnd (Bool.eq_false_iff.mpr hend) with
        ⟨error, -, htokens⟩ | ⟨piece, -, -, -, hafter, -, -, htokens⟩
      · rw [htokens]
        exact ih.of_sublist (List.Sublist.refl _) hle
      · rw [htokens]
        refine ⟨List.pairwise_cons.mpr ⟨fun token hmem => ?_, ih.ordered⟩, ?_⟩
        · exact hafter.ge.trans (ih.from_le token hmem)
        · rintro token (_ | ⟨_, hmem⟩)
          · exact Nat.le_add_right _ _
          · exact hle.trans (ih.from_le token hmem)

end Cursor

namespace Segment

theorem flatMap_tokens_push_ok (token : Token) (segments : List Segment) :
    ((push (.ok token) segments).flatMap tokens).Sublist (token :: segments.flatMap tokens) := by
  cases segments with
  | nil => exact List.nil_sublist _
  | cons segment segments => exact List.Sublist.refl _

theorem flatMap_tokens_push_error (error : LexError) (segments : List Segment) :
    ((push (.error error) segments).flatMap tokens).Sublist (segments.flatMap tokens) := by
  cases segments with
  | nil => exact List.nil_sublist _
  | cons segment segments => exact List.sublist_append_right _ _

/-- What stands in segments in front of the errors is among the tokens. -/
theorem flatMap_tokens_split (lexemes : List Lexeme) :
    ((split lexemes).flatMap tokens).Sublist (lexemes.filterMap Lexeme.token?) := by
  induction lexemes with
  | nil => exact List.nil_sublist _
  | cons lexeme lexemes ih =>
      cases lexeme with
      | error error => exact (flatMap_tokens_push_error error _).trans ih
      | ok token =>
          cases hterminator : isTerminator token with
          | true =>
              rw [split, hterminator, if_pos rfl, List.filterMap_cons]
              split
              next => exact ih
              next => exact ih.cons _
          | false =>
              simp only [isTerminator, Bool.or_eq_false_iff, decide_eq_false_iff_not] at hterminator
              have htoken : Lexeme.token? (.ok token) = some token := if_neg hterminator.2
              rw [split, List.filterMap_cons, htoken]
              simp only [isTerminator, hterminator, decide_false, Bool.or_self, Bool.false_eq_true,
                if_false]
              exact (flatMap_tokens_push_ok token _).trans (ih.cons_cons token)

end Segment

/-- The tokens of the segments from a cursor on stand one behind the other. -/
theorem Cursor.orderedFrom_split (cursor : Cursor) :
    OrderedFrom cursor.offset ((Segment.split cursor.lexemes).flatMap Segment.tokens) :=
  cursor.orderedFrom_tokens.of_sublist (Segment.flatMap_tokens_split _) le_rfl

/-! ## Segments -/

namespace Segment

variable {source : List Char} {database : Option String} {segment : Segment} {index start : Nat}

theorem tokens_ne_nil (hne : segment.lexemes ≠ []) (hnone : segment.lexError? = none) :
    segment.tokens ≠ [] := by
  obtain ⟨lexemes, terminator⟩ := segment
  cases lexemes with
  | nil => exact absurd rfl hne
  | cons lexeme lexemes =>
      cases lexeme with
      | error error => simp [lexError?] at hnone
      | ok token => simp [tokens, tokens.go]

/-- What is known of a segment that is read as a statement: the pieces that the statement
consists of, and the statement when there is nothing but these pieces. -/
structure ReadAs (source : List Char) (database : Option String) (segment : Segment)
    (statement : Statement) (front back : List Char) (piece : Piece) (ps qs : List Piece) :
    Prop where
  source : source = front ++ spelling (piece :: ps ++ qs) ++ back
  tokens : segment.tokens = tokensAt (Text.byteLength front) (piece :: ps ++ qs)
  legible : Legible (piece :: ps ++ qs)
  span : statement.span = ⟨Text.byteLength front + Text.byteLength piece.gap,
    Text.byteLength front + Text.byteLength (spelling (piece :: ps))⟩
  table : ∀ {table}, statement = .createTable table → ∃ table',
    Script.statements (String.ofList (groupText (piece :: ps))) database
        = [.ok (.createTable table')]
      ∧ table = table'.shift (Text.byteLength front + Text.byteLength piece.gap)

/-- Behind their first tokens, the pieces of a text lie in the source beside the text. -/
theorem beside_advance {front back : List Char} {piece : Piece} {ps qs : List Piece}
    {stop stop' : Token} (hstop : isTerminator stop = true) (last last' : Nat) :
    Input.Beside (Text.byteLength front + Text.byteLength piece.gap)
      (tokensAt (Text.byteLength front + Text.byteLength (spelling (piece :: ps))) qs)
      (Input.advance ⟨front ++ spelling (piece :: ps ++ qs) ++ back,
        tokensAt (Text.byteLength front) (piece :: ps ++ qs), stop, last⟩)
      (Input.advance ⟨groupText (piece :: ps), tokensAt 0 ({ piece with gap := [] } :: ps), stop',
        last'⟩) := by
  constructor
  · exact hstop
  · exact ⟨front ++ piece.gap, spelling qs ++ back, by simp [groupText, Piece.spelling], by simp⟩
  · change tokensAt (Text.byteLength front + Text.byteLength piece.spelling) (ps ++ qs)
      = (tokensAt (0 + Text.byteLength ([] ++ piece.text)) ps).map _ ++ _
    rw [tokensAt_append, ← tokensAt_shift]
    simp [Piece.spelling, Nat.add_assoc]
  · simp [Input.advance, Piece.token, Piece.spelling, Nat.add_assoc]
  · simp [Input.advance, Piece.token, Piece.spelling, groupText]
  · intro token hmem
    have hstop := stop_le_of_mem_tokensAt token (show token ∈ tokensAt _ ps from hmem)
    refine hstop.trans (Nat.le_of_eq ?_)
    simp [Piece.spelling, groupText]

/-- The text of the pieces that a table is read from is read as the table. -/
theorem statements_groupText {front : List Char} (back : List Char) {piece : Piece}
    {ps qs : List Piece} {stop : Token} (last : Nat) {table : CreateTable}
    (hlegible : Legible (piece :: ps ++ qs))
    (hstop : isTerminator stop = true)
    (htable : ∀ other : Input,
      piece.token (Text.byteLength front)
          = other.current.shift (Text.byteLength front + Text.byteLength piece.gap) →
      Input.Beside (Text.byteLength front + Text.byteLength piece.gap)
          (tokensAt (Text.byteLength front + Text.byteLength (spelling (piece :: ps))) qs)
          (Input.advance ⟨front ++ spelling (piece :: ps ++ qs) ++ back,
            tokensAt (Text.byteLength front) (piece :: ps ++ qs), stop, last⟩) other.advance →
        ∃ table' next, (Parser.statement database).parse other = (.ok (.createTable table'), next)
          ∧ next.tokens = []
          ∧ table = table'.shift (Text.byteLength front + Text.byteLength piece.gap)) :
    ∃ table', Script.statements (String.ofList (groupText (piece :: ps))) database
        = [.ok (.createTable table')]
      ∧ table = table'.shift (Text.byteLength front + Text.byteLength piece.gap) := by
  have hpieces : Legible (piece :: ps) := Legible.of_append_left hlegible
  have hown : Legible ({ piece with gap := [] } :: ps) := hpieces.regap (List.forall_mem_nil _)
  have hspelling : spelling ({ piece with gap := [] } :: ps) = groupText (piece :: ps) := by
    simp [groupText, Piece.spelling]
  obtain ⟨stop', -, hsegments⟩ := Script.exists_segments_spelling hown
  rw [hspelling] at hsegments
  have hfirst : piece.token (Text.byteLength front)
      = (Piece.token { piece with gap := [] } 0).shift
        (Text.byteLength front + Text.byteLength piece.gap) := by
    simp [Piece.token, Piece.spelling, Token.shift, Span.shift, Nat.add_assoc]
  obtain ⟨table', next, hparse, -, hshift⟩ := htable ⟨groupText (piece :: ps),
    tokensAt 0 ({ piece with gap := [] } :: ps), stop', 0⟩ hfirst (beside_advance hstop last 0)
  refine ⟨table', ?_, hshift⟩
  rw [Script.statements_eq_readFrom, String.toList_ofList, hsegments, Script.readFrom_ok (by simp)
    (Segment.run_of_parse hparse _ _)]
  rfl

theorem exists_readAs {statement : Statement} (hmem : segment ∈ Script.segments source)
    (hne : segment.lexemes ≠ [])
    (h : segment.run source (Parser.statement database) index start = .ok statement) :
    ∃ front back piece ps qs, segment.ReadAs source database statement front back piece ps qs := by
  obtain ⟨front, pieces, back, hsource, htokens, hlegible⟩ := Script.exists_pieces hmem
  obtain ⟨after, hparse, hlexError⟩ := parse_of_run h
  obtain ⟨hnil, middle, hfollows, hshorter, hspan, htable⟩ :=
    Parser.exists_of_parse_statement (standing_input hmem).2 hparse
  have hshorter := hshorter (tokens_ne_nil hne (hlexError hnil))
  obtain ⟨consumed, hconsumed, hlast⟩ := hfollows.read
  have hinput : (segment.input source).tokens = segment.tokens := rfl
  rw [hinput, htokens] at hconsumed
  obtain ⟨ps, qs, rfl, rfl, hmiddle⟩ := exists_of_tokensAt_eq_append hconsumed
  cases ps with
  | nil =>
      rw [hinput, htokens, hmiddle] at hshorter
      simp at hshorter
  | cons piece ps =>
      have hcurrent : (segment.input source).current = piece.token (Text.byteLength front) := by
        rw [Input.current, hinput, htokens]
        rfl
      obtain ⟨last, hgetLast, hstop⟩ :=
        getLast?_tokensAt (Text.byteLength front) (List.cons_ne_nil piece ps)
      rw [hgetLast] at hlast
      have hend : middle.lastStop = last.span.stop := hlast
      rw [hcurrent] at hspan htable
      refine ⟨front, back, piece, ps, qs, hsource, htokens, hlegible, ?_, fun htable' => ?_⟩
      · rw [hspan, hend, hstop]
        rfl
      · refine statements_groupText back 0 hlegible (standing_input hmem).2
          fun other hfirst hbeside => htable htable' other hfirst ?_
        have hshape : segment.input source = ⟨front ++ spelling (piece :: ps ++ qs) ++ back,
            tokensAt (Text.byteLength front) (piece :: ps ++ qs), (segment.input source).stop,
              0⟩ := by
          rw [← hsource, ← htokens]
          rfl
        rw [hmiddle, hshape]
        exact hbeside

namespace ReadAs

variable {statement : Statement} {front back : List Char} {piece : Piece} {ps qs : List Piece}
  (h : segment.ReadAs source database statement front back piece ps qs)

include h

theorem exists_first : ∃ token ∈ segment.tokens, token.span.start = statement.span.start :=
  ⟨piece.token (Text.byteLength front), by simp [h.tokens], by rw [h.span]; rfl⟩

theorem exists_last : ∃ token ∈ segment.tokens, token.span.stop = statement.span.stop := by
  obtain ⟨last, hlast, hstop⟩ :=
    getLast?_tokensAt (Text.byteLength front) (List.cons_ne_nil piece ps)
  refine ⟨last, ?_, by rw [h.span, hstop]⟩
  rw [h.tokens, tokensAt_append]
  exact List.mem_append_left _ (List.mem_of_getLast? hlast)

theorem covers : statement.span.Covers source := by
  have hpieces : Legible (piece :: ps) := Legible.of_append_left h.legible
  have hne := (append_of_scanToken hpieces.whole).2
  refine ⟨front ++ piece.gap, groupText (piece :: ps), spelling qs ++ back, ?_, ?_, ?_⟩
  · simp [groupText, hne]
  · simp [h.source, groupText, Piece.spelling]
  · simp [h.span, groupText, Piece.spelling]

theorem text : statement.span.text source = String.ofList (groupText (piece :: ps)) := by
  have hstands : StandsAt source (Text.byteLength front) (piece :: ps ++ qs) :=
    ⟨front, back, h.source, rfl⟩
  rw [h.span, StandsAt.text (StandsAt.left hstands)]

end ReadAs

end Segment

/-! ## Scripts -/

namespace Script

variable {source : List Char} {database : Option String} {segments : List Segment}

/-- The statements stand one behind the other, as their segments do. -/
theorem pairwise_readFrom (hmem : ∀ segment ∈ segments, segment ∈ Script.segments source)
    (hordered : (segments.flatMap Segment.tokens).Pairwise
      fun first second => first.span.stop ≤ second.span.start) (index : Nat) (failed : Bool) :
    ((readFrom source database index failed segments).filterMap Except.toOption).Pairwise
      fun first second => first.span.stop ≤ second.span.start := by
  induction segments generalizing index failed with
  | nil => exact .nil
  | cons segment segments ih =>
      rw [List.flatMap_cons, List.pairwise_append] at hordered
      obtain ⟨-, hothers, hbetween⟩ := hordered
      have hrest := ih (fun other hother => hmem other (List.mem_cons_of_mem _ hother)) hothers
      rw [readFrom]
      split
      next => exact hrest _ _
      next hne =>
        split
        next => exact .nil
        next =>
          split
          next statement hrun =>
            refine List.pairwise_cons.mpr ⟨fun later hlater => ?_, hrest _ _⟩
            obtain ⟨item, hitem, hlater⟩ := List.mem_filterMap.mp hlater
            cases item with
            | error error => cases hlater
            | ok item =>
                obtain rfl := Option.some.inj hlater
                obtain ⟨other, hother, hne', _, hrun'⟩ := exists_segment_of_mem_readFrom hitem
                obtain ⟨_, _, _, _, _, h⟩ :=
                  Segment.exists_readAs (hmem segment List.mem_cons_self) (by simpa using hne) hrun
                obtain ⟨_, _, _, _, _, h'⟩ :=
                  Segment.exists_readAs (hmem other (List.mem_cons_of_mem _ hother)) hne' hrun'
                obtain ⟨last, hlast, hstop⟩ := h.exists_last
                obtain ⟨first, hfirst, hstart⟩ := h'.exists_first
                rw [← hstop, ← hstart]
                exact hbetween last hlast first (List.mem_flatMap.mpr ⟨other, hother, hfirst⟩)
          next => exact hrest _ _

theorem exists_readAs {source : String} {statement : Statement}
    (h : .ok statement ∈ statements source database) :
    ∃ segment front back piece ps qs, Segment.ReadAs source.toList database segment statement
      front back piece ps qs := by
  rw [statements_eq_readFrom] at h
  obtain ⟨segment, hsegment, hne, index, hrun⟩ := exists_segment_of_mem_readFrom h
  exact ⟨segment, Segment.exists_readAs hsegment hne hrun⟩

/-- The text of a table is read as the table, moved to the beginning. -/
theorem exists_statements_text {source : String} {table : CreateTable}
    (h : .ok (.createTable table) ∈ statements source database) :
    ∃ table', statements (table.span.text source.toList) database = [.ok (.createTable table')]
      ∧ table = table'.shift table.span.start := by
  obtain ⟨segment, front, back, piece, ps, qs, hread⟩ := exists_readAs h
  obtain ⟨table', hstatements, hshift⟩ := hread.table rfl
  have htext : table.span.text source.toList = _ := hread.text
  have hstart : table.span.start = Text.byteLength front + Text.byteLength piece.gap :=
    congrArg Span.start hread.span
  refine ⟨table', ?_, ?_⟩
  · rw [htext]
    exact hstatements
  · rw [hstart]
    exact hshift

/-- Statements have places one behind the other, and the text of a table gives the table
without the rest of the script.  Tables of the same text only differ in their places. -/
theorem statements_local (source : String) (database : Option String) :
    (∀ statement, .ok statement ∈ statements source database →
      statement.span.Covers source.toList) ∧
    ((statements source database).filterMap Except.toOption).Pairwise
      (fun first second => first.span.stop ≤ second.span.start) ∧
    ∀ table, .ok (.createTable table) ∈ statements source database →
      ∃ table', statements (table.span.text source.toList) database = [.ok (.createTable table')] ∧
        table = table'.shift table.span.start ∧
        ∀ (other : String) (twin : CreateTable),
          .ok (.createTable twin) ∈ statements other database →
            twin.span.text other.toList = table.span.text source.toList →
              twin = table'.shift twin.span.start := by
  refine ⟨fun statement hstatement => ?_, ?_, fun table htable => ?_⟩
  · obtain ⟨segment, front, back, piece, ps, qs, hread⟩ := exists_readAs hstatement
    exact hread.covers
  · rw [statements_eq_readFrom]
    exact pairwise_readFrom (fun _ hsegment => hsegment)
      ((Cursor.atStart source.toList).orderedFrom_split).ordered 0 false
  · obtain ⟨table', hstatements, hshift⟩ := exists_statements_text htable
    refine ⟨table', hstatements, hshift, fun other twin htwin htext => ?_⟩
    obtain ⟨own, hown, htwin⟩ := exists_statements_text htwin
    rw [htext, hstatements] at hown
    obtain rfl : table' = own := by simpa using hown
    exact htwin

end Script

end SchemaDelta.Sql
