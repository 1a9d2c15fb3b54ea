import SchemaDelta.Proofs.Parsing.Extent

/-!
# Readers go from segment to segment

A reader only has one lexeme at hand, and goes on from wherever a parser gives up.
It gives what the segments of the script give one by one: a parser does not read
past the end of its segment, and recovery comes to the same place from anywhere in
a segment.
-/

namespace SchemaDelta.Sql

/-! ## Lexemes by segments -/

/-- No token of the segment ends a statement. -/
def Segment.Inside (segment : Segment) : Prop :=
  ∀ token, .ok token ∈ segment.lexemes → isTerminator token = false

/-- Lexemes through the end of the input, and the segments that they are. -/
inductive Segmented : List Lexeme → List Segment → Prop
  | last {segment : Segment} (hinside : segment.Inside)
      (hstop : segment.terminator.kind = .endOfInput) :
      Segmented (segment.lexemes ++ [.ok segment.terminator]) [segment]
  | cons {segment : Segment} {lexemes : List Lexeme} {segments : List Segment}
      (hinside : segment.Inside) (hsemicolon : segment.terminator.kind = .semicolon)
      (hrest : Segmented lexemes segments) :
      Segmented (segment.lexemes ++ .ok segment.terminator :: lexemes) (segment :: segments)

theorem Segment.inside_cons {lexeme : Lexeme} {segment : Segment} (h : segment.Inside)
    (hlexeme : ∀ token, lexeme = .ok token → isTerminator token = false) :
    Inside ⟨lexeme :: segment.lexemes, segment.terminator⟩ := by
  intro token hmem
  rcases List.mem_cons.mp hmem with heq | hmem
  · exact hlexeme token heq.symm
  · exact h token hmem

namespace Segmented

variable {lexemes : List Lexeme} {segments : List Segment}

theorem ne_nil (h : Segmented lexemes segments) : lexemes ≠ [] := by
  cases h <;> simp

theorem segments_ne_nil (h : Segmented lexemes segments) : segments ≠ [] := by
  cases h <;> simp

/-- The lexemes begin with those of the first segment and what ends it, behind which there is
nothing if it is the end of the input. -/
theorem exists_first {segment : Segment} (h : Segmented lexemes (segment :: segments)) :
    ∃ rest, lexemes = segment.lexemes ++ .ok segment.terminator :: rest ∧ segment.Inside
      ∧ Segment.isTerminator segment.terminator = true
      ∧ (segment.terminator.kind = .endOfInput → rest = []) := by
  cases h with
  | last hinside hstop =>
      exact ⟨[], rfl, hinside, by simp [Segment.isTerminator, hstop], fun _ => rfl⟩
  | @cons _ rest _ hinside hsemicolon _ =>
      exact ⟨rest, rfl, hinside, by simp [Segment.isTerminator, hsemicolon],
        fun hstop => by simp [hsemicolon] at hstop⟩

/-- A lexeme that ends no statement belongs to the first segment. -/
theorem push {lexeme : Lexeme} (h : Segmented lexemes segments)
    (hlexeme : ∀ token, lexeme = .ok token → Segment.isTerminator token = false) :
    Segmented (lexeme :: lexemes) (Segment.push lexeme segments) := by
  cases h with
  | @last segment hinside hstop => exact .last (segment.inside_cons hinside hlexeme) hstop
  | @cons segment lexemes segments hinside hsemicolon hrest =>
      exact .cons (segment.inside_cons hinside hlexeme) hsemicolon hrest

end Segmented

theorem Cursor.segmented_split (cursor : Cursor) :
    Segmented cursor.lexemes (Segment.split cursor.lexemes) := by
  fun_induction lexemes cursor with
  | case1 cursor hend =>
      cases hnext : cursor.next.1 with
      | error error => simp [hnext, Lexeme.isEnd] at hend
      | ok token =>
          have hkind : token.kind = .endOfInput := by simpa [hnext, Lexeme.isEnd] using hend
          have hterminator : Segment.isTerminator token = true := by
            simp [Segment.isTerminator, hkind]
          simp only [Segment.split, hterminator, if_true]
          exact @Segmented.last ⟨[], token⟩ (by simp [Segment.Inside]) hkind
  | case2 cursor hend ih =>
      cases hnext : cursor.next.1 with
      | error error => exact ih.push (by simp)
      | ok token =>
          cases hterminator : Segment.isTerminator token with
          | true =>
              have hnot : token.kind ≠ .endOfInput := by simpa [hnext, Lexeme.isEnd] using hend
              have hkind : token.kind = .semicolon := by
                simpa [Segment.isTerminator, hnot] using hterminator
              simp only [Segment.split, hterminator, if_true]
              exact @Segmented.cons ⟨[], token⟩ _ _ (by simp [Segment.Inside]) hkind ih
          | false =>
              rw [Segment.split, if_neg (by simp [hterminator])]
              exact ih.push (by simp [hterminator])

theorem Script.segmented_segments (source : List Char) :
    Segmented (lexemes source) (segments source) :=
  (Cursor.atStart source).segmented_split

theorem Script.segments_ne_nil (source : List Char) : segments source ≠ [] :=
  (segmented_segments source).segments_ne_nil

/-! ## What is ahead -/

namespace Segment

theorem lexemes_of_lexError?_eq_none {segment : Segment} (h : segment.lexError? = none) :
    segment.lexemes = segment.tokens.map .ok := by
  obtain ⟨lexemes, terminator⟩ := segment
  unfold lexError? tokens at *
  dsimp only at h ⊢
  induction lexemes with
  | nil => rfl
  | cons lexeme lexemes ih =>
      cases lexeme with
      | error error => simp at h
      | ok token =>
          rw [tokens.go, List.map_cons, ← ih (by simpa using h)]

/-- Nothing of a segment can be read when it begins with an error. -/
theorem startsWithError_iff (segment : Segment) : segment.startsWithError = true ↔
    ∃ error lexemes, segment.lexemes = .error error :: lexemes := by
  obtain ⟨lexemes, terminator⟩ := segment
  rcases lexemes with _ | ⟨error | token, lexemes⟩ <;>
    simp [startsWithError, tokens, tokens.go, lexError?]

/-- A reader sees as far ahead as its segment can be read. -/
theorem ahead_eq {segment : Segment} (hinside : segment.Inside)
    (hterminator : isTerminator segment.terminator = true) (source : List Char)
    (rest : List Lexeme) :
    Reader.ahead (segment.lexemes ++ .ok segment.terminator :: rest)
      = ((segment.input source).tokens, (segment.input source).stop) := by
  obtain ⟨lexemes, terminator⟩ := segment
  induction lexemes with
  | nil => simp [Reader.ahead, hterminator, input, tokens, tokens.go, lexError?]
  | cons lexeme lexemes ih =>
      cases lexeme with
      | error error => rfl
      | ok token =>
          have hfirst := hinside token List.mem_cons_self
          have hrest := ih (fun other hmem => hinside other (List.mem_cons_of_mem _ hmem))
            hterminator
          rw [List.cons_append, Reader.ahead, if_neg (by simp [hfirst]), hrest]
          rfl

end Segment

/-! ## Places of a reader -/

namespace Reader

/-- A reader that comes to the first of the lexemes without an error behind it. -/
def facing (lexemes : List Lexeme) : Reader :=
  ⟨lexemes, lexemes.head?.bind Lexeme.error?⟩

theorem start_eq_facing (source : List Char) : start source = facing (Sql.lexemes source) := by
  have hne := (Script.segmented_segments source).ne_nil
  unfold start
  cases hlexemes : Sql.lexemes source with
  | nil => exact absurd hlexemes hne
  | cons lexeme lexemes => rfl

theorem advance_facing (token : Token) {lexemes : List Lexeme} (hne : lexemes ≠ []) :
    (facing (.ok token :: lexemes)).advance = facing lexemes := by
  cases lexemes with
  | nil => exact absurd rfl hne
  | cons lexeme lexemes => rfl

/-- The tokens of a segment are passed one by one. -/
theorem advanceBy_facing {segment : Segment} {n : Nat} (hn : n ≤ segment.tokens.length)
    {back : List Lexeme} (hne : back ≠ []) :
    (facing (segment.lexemes ++ back)).advanceBy n = facing (segment.lexemes.drop n ++ back) := by
  obtain ⟨lexemes, terminator⟩ := segment
  induction n generalizing lexemes with
  | zero => rfl
  | succ n ih =>
      rcases lexemes with _ | ⟨error | token, lexemes⟩
      · exact absurd hn (Nat.not_succ_le_zero n)
      · exact absurd hn (Nat.not_succ_le_zero n)
      · have hbehind : lexemes ++ back ≠ [] := List.append_ne_nil_of_right_ne_nil _ hne
        rw [advanceBy, List.cons_append, advance_facing token hbehind]
        exact ih lexemes (Nat.le_of_succ_le_succ hn)

/-- A reader is at the lexical error of its segment when it has passed all of the tokens. -/
theorem lexError_facing {segment : Segment} {n : Nat} (hn : n ≤ segment.tokens.length)
    (terminator : Token) (rest : List Lexeme) :
    (facing (segment.lexemes.drop n ++ .ok terminator :: rest)).lexError
      = if n = segment.tokens.length then segment.lexError? else none := by
  obtain ⟨lexemes, last⟩ := segment
  induction n generalizing lexemes with
  | zero => rcases lexemes with _ | ⟨error | token, lexemes⟩ <;> rfl
  | succ n ih =>
      rcases lexemes with _ | ⟨error | token, lexemes⟩
      · exact absurd hn (Nat.not_succ_le_zero n)
      · exact absurd hn (Nat.not_succ_le_zero n)
      · have hrest := ih lexemes (Nat.le_of_succ_le_succ hn)
        rw [List.drop_succ_cons, hrest]
        exact if_congr Nat.succ_inj.symm rfl rfl

/-- Recovery passes over all that ends no statement. -/
theorem behind_append {front : List Lexeme}
    (hinside : ∀ token, .ok token ∈ front → Segment.isTerminator token = false)
    (back : List Lexeme) : behind (front ++ back) = behind back := by
  induction front with
  | nil => rfl
  | cons lexeme front ih =>
      have hrest := ih fun token hmem => hinside token (List.mem_cons_of_mem _ hmem)
      cases lexeme with
      | error error => rwa [List.cons_append, behind]
      | ok token =>
          have hfirst := hinside token List.mem_cons_self
          simp only [Segment.isTerminator, Bool.or_eq_false_iff, decide_eq_false_iff_not] at hfirst
          rw [List.cons_append, behind, if_neg hfirst.1, if_neg hfirst.2, hrest]

theorem behind_drop {segment : Segment} (hinside : segment.Inside) (n : Nat)
    (back : List Lexeme) : behind (segment.lexemes.drop n ++ back) = behind back :=
  behind_append (fun token hmem => hinside token (List.drop_subset n _ hmem)) back

theorem length_behind_le (lexemes : List Lexeme) : (behind lexemes).length ≤ lexemes.length := by
  fun_induction behind lexemes <;> simp_all <;> omega

theorem skipSemicolons_cons {semicolon : Token} (hkind : semicolon.kind = .semicolon)
    {lexemes : List Lexeme} (hne : lexemes ≠ []) :
    (facing (.ok semicolon :: lexemes)).skipSemicolons = (facing lexemes).skipSemicolons := by
  have hpassed := advance_facing semicolon hne
  have htake : ((Except.ok semicolon :: lexemes : List Lexeme).takeWhile
      Lexeme.isSemicolon).length = (lexemes.takeWhile Lexeme.isSemicolon).length + 1 := by
    rw [List.takeWhile_cons_of_pos (by simp [Lexeme.isSemicolon, hkind]), List.length_cons]
  change advanceBy _ _ = advanceBy _ _
  rw [facing, htake, advanceBy]
  exact congrArg _ hpassed

theorem skipSemicolons_eq_self {reader : Reader}
    (h : ∀ lexeme ∈ reader.lexemes.head?, Lexeme.isSemicolon lexeme = false) :
    reader.skipSemicolons = reader := by
  obtain ⟨lexemes, lexError⟩ := reader
  cases lexemes with
  | nil => rfl
  | cons lexeme lexemes =>
      have hfirst : Lexeme.isSemicolon lexeme = false := h lexeme rfl
      rw [skipSemicolons, List.takeWhile_cons_of_neg (by simp [hfirst])]
      rfl

end Reader

/-! ## Running a parser -/

/-- Where there is nothing to be read, the parser reads nothing. -/
def Parser.RestsAtEnd {α : Type} (p : Parser α) : Prop :=
  ∀ input : Input, input.tokens = [] → input.stop.kind = .endOfInput →
    (p.parse input).2.tokens = []

theorem Parser.restsAtEnd_statement (database : Option String) :
    RestsAtEnd (Parser.statement database) := by
  intro input hnil hstop
  have hnot : input.current.kind ≠ .keyword .CREATE := by
    rw [Input.current_nil hnil, hstop]
    exact nofun
  obtain ⟨last, hother, -, hlast⟩ := parse_otherStatement input.current.span.start input
  rw [parse_statement, if_neg hnot, hother]
  exact hlast

theorem Parser.restsAtEnd_columnType : RestsAtEnd Parser.columnType := by
  intro input hnil hstop
  have hkind : input.current.kind = .endOfInput := by rw [Input.current_nil hnil, hstop]
  simp [Parser.columnType, dataType, typeName, typeWord, unexpected, parse_bind, parse_current,
    parse_fail, hkind, hnil]

/-- The lexical error of a segment wins when the parser comes to it. -/
theorem Segment.run_eq_outcome {α : Type} (source : List Char) (parser : Parser α)
    (index start : Nat) (segment : Segment) :
    segment.run source parser index start
      = Reader.outcome source index start
        (if (parser.parse (segment.input source)).2.tokens = [] then segment.lexError? else none)
        (parser.parse (segment.input source)).1 := by
  unfold run Reader.outcome Parser.parse
  dsimp only
  cases parser.run (segment.input source) with
  | mk result left =>
      obtain ⟨_, tokens, _, _⟩ := left
      cases tokens <;> cases segment.lexError? <;> cases result <;> simp

/-- What is read of a segment is what the parser gives in front of all lexical errors. -/
theorem Segment.parse_of_run {α : Type} {parser : Parser α} {source : List Char}
    {index start : Nat} {segment : Segment} {a : α}
    (h : segment.run source parser index start = .ok a) :
    ∃ after, parser.parse (segment.input source) = (.ok a, after)
      ∧ (after.tokens = [] → segment.lexError? = none) := by
  unfold run at h
  dsimp only at h
  split at h
  next result after hparse =>
    split at h
    next => cases h
    next => cases h
    next value hsome =>
      obtain rfl := Except.ok.inj h
      refine ⟨after, hparse, fun hnil =>
        Option.eq_none_iff_forall_ne_some.mpr fun error herror => ?_⟩
      exact hsome error hnil herror

namespace Reader

variable {segment : Segment} {rest : List Lexeme}

theorem current_facing (hne : segment.lexemes ≠ []) (source : List Char) (rest : List Lexeme) :
    (facing (segment.lexemes ++ rest)).current = (segment.input source).current := by
  obtain ⟨lexemes, terminator⟩ := segment
  cases lexemes with
  | nil => exact absurd rfl hne
  | cons lexeme lexemes => cases lexeme <;> rfl

/-- A parser is run on the segment that the reader faces, and the reader stays within it. -/
theorem run_facing {α : Type} {parser : Parser α} (hrests : parser.RestsAtEnd)
    (hinside : segment.Inside) (hterminator : Segment.isTerminator segment.terminator = true)
    (source : List Char) (index start : Nat) (rest : List Lexeme) :
    (facing (segment.lexemes ++ .ok segment.terminator :: rest)).run source parser index start
      = (segment.run source parser index start,
        facing (segment.lexemes.drop (segment.tokens.length
          - (parser.parse (segment.input source)).2.tokens.length)
            ++ .ok segment.terminator :: rest)) := by
  set left := (parser.parse (segment.input source)).2 with hleft
  have hpassed : segment.tokens.length - left.tokens.length ≤ segment.tokens.length :=
    Nat.sub_le _ _
  -- a parser that has nothing to read leaves nothing, so it has come to the error
  have hstays : segment.lexError? ≠ none → segment.tokens = [] → left.tokens = [] := by
    intro hsome hnil
    obtain ⟨error, herror⟩ := Option.ne_none_iff_exists'.mp hsome
    exact hrests (segment.input source) hnil (by simp [Segment.input, herror])
  have hlexError : (if segment.tokens.length - left.tokens.length = segment.tokens.length then
      segment.lexError? else none) = if left.tokens = [] then segment.lexError? else none := by
    cases hsome : segment.lexError? with
    | none => simp
    | some error =>
        have hiff : segment.tokens.length - left.tokens.length = segment.tokens.length
            ↔ left.tokens = [] := by
          have hstays := hstays (by simp [hsome])
          rw [← List.length_eq_zero_iff, ← List.length_eq_zero_iff] at hstays
          rw [← List.length_eq_zero_iff]
          omega
        simp only [hiff]
  rw [segment.run_eq_outcome, ← hlexError, ← lexError_facing hpassed segment.terminator rest,
    ← advanceBy_facing hpassed (List.cons_ne_nil _ _), run]
  rw [show (facing (segment.lexemes ++ .ok segment.terminator :: rest)).lexemes
    = segment.lexemes ++ .ok segment.terminator :: rest from rfl,
    segment.ahead_eq hinside hterminator source rest]
  rfl

/-! ## Reading a statement -/

variable {back : List Lexeme}

/-- Behind a statement that is read, its semicolon is passed, and the end of the input is not. -/
theorem facing_behind {stop : Token} (hterminator : Segment.isTerminator stop = true)
    (hbehind : behind (.ok stop :: rest) = back) (hne : back ≠ []) :
    (if (facing (.ok stop :: rest)).current.kind = .semicolon then
        (facing (.ok stop :: rest)).advance
      else facing (.ok stop :: rest)) = facing back := by
  have hcurrent : (facing (.ok stop :: rest)).current = stop := rfl
  rw [hcurrent]
  by_cases hkind : stop.kind = .semicolon
  · rw [behind, if_pos hkind] at hbehind
    subst hbehind
    rw [if_pos hkind]
    exact advance_facing stop hne
  · have hstop : stop.kind = .endOfInput := by
      simpa [Segment.isTerminator, hkind] using hterminator
    rw [behind, if_neg hkind, if_pos hstop] at hbehind
    rw [if_neg hkind, hbehind]

theorem skipSemicolons_facing (hinside : segment.Inside) (hne : segment.lexemes ≠ [])
    (rest : List Lexeme) :
    (facing (segment.lexemes ++ rest)).skipSemicolons = facing (segment.lexemes ++ rest) := by
  refine skipSemicolons_eq_self fun lexeme hmem => ?_
  rw [facing, List.head?_append_of_ne_nil _ hne] at hmem
  cases lexeme with
  | error error => rfl
  | ok token =>
      have hnot := hinside token (List.mem_of_mem_head? hmem)
      simp only [Segment.isTerminator, Bool.or_eq_false_iff] at hnot
      exact hnot.1

theorem not_ended_facing (hinside : segment.Inside) (hne : segment.lexemes ≠ [])
    (rest : List Lexeme) : ¬((facing (segment.lexemes ++ rest)).current.kind = .endOfInput
      ∧ (facing (segment.lexemes ++ rest)).lexError = none) := by
  obtain ⟨lexemes, terminator⟩ := segment
  rcases lexemes with _ | ⟨token | error, lexemes⟩
  · exact absurd rfl hne
  · simp [facing, Lexeme.error?]
  · have hfirst := hinside _ List.mem_cons_self
    simp_all [facing, current, Lexeme.token, Segment.isTerminator]

/-- What a reader gives of a segment that holds anything, and how it goes on. -/
theorem statement?_facing (hinside : segment.Inside) (hempty : segment.lexemes ≠ [])
    (hterminator : Segment.isTerminator segment.terminator = true)
    (hbehind : behind (.ok segment.terminator :: rest) = back) (hne : back ≠ [])
    (source : List Char) (database : Option String) (index : Nat) :
    (facing (segment.lexemes ++ .ok segment.terminator :: rest)).statement? source database index
      = match segment.run source (Parser.statement database) index (segment.start source) with
        | .ok statement => some (.ok statement, facing back)
        | .error error => some (.error error, ⟨back, none⟩) := by
  have hstart : (facing (segment.lexemes ++ .ok segment.terminator :: rest)).current.span.start
      = segment.start source := by
    rw [current_facing hempty source]
    rfl
  rw [statement?, if_neg (not_ended_facing hinside hempty _), hstart,
    run_facing (Parser.restsAtEnd_statement database) hinside hterminator]
  cases hread : segment.run source (Parser.statement database) index (segment.start source) with
  | error error => simp [recover, facing, behind_drop hinside, hbehind]
  | ok statement =>
      obtain ⟨left, hparse, hnone⟩ := Segment.parse_of_run hread
      have hnil := (Parser.exists_of_parse_statement
        (Segment.isTerminator_stop hterminator source) hparse).1
      have hdrop : segment.lexemes.drop segment.tokens.length = [] := by
        rw [segment.lexemes_of_lexError?_eq_none (hnone hnil)]
        simp
      rw [hparse, hnil, List.length_nil, Nat.sub_zero, hdrop, List.nil_append]
      exact congrArg (fun reader => some (Except.ok statement, reader))
        (facing_behind hterminator hbehind hne)

/-! ## Reading a script -/

/-- A reader behind a statement.  A failed statement leaves no lexical error, even where the
lexeme at hand is one. -/
def behindStatement (failed : Bool) (lexemes : List Lexeme) : Reader :=
  if failed then ⟨lexemes, none⟩ else facing lexemes

/-- Only a failed statement in front of an error makes a difference. -/
theorem behindStatement_eq_facing {failed : Bool} (hempty : segment.lexemes ≠ [])
    (h : ¬(failed = true ∧ segment.startsWithError = true)) (rest : List Lexeme) :
    behindStatement failed (segment.lexemes ++ rest) = facing (segment.lexemes ++ rest) := by
  cases failed with
  | false => rfl
  | true =>
      rcases hlexemes : segment.lexemes with _ | ⟨error | token, lexemes⟩
      · exact absurd hlexemes hempty
      · exact absurd ⟨rfl, segment.startsWithError_iff.mpr ⟨error, lexemes, hlexemes⟩⟩ h
      · rfl

/-- Nothing is read where the reader sees the end of the input. -/
theorem statements_ended {reader : Reader} (hkind : reader.current.kind = .endOfInput)
    (hnone : reader.lexError = none) (source : List Char) (database : Option String)
    (index : Nat) : reader.statements source database index = [] := by
  have hskip : reader.skipSemicolons = reader := by
    refine skipSemicolons_eq_self fun lexeme hmem => ?_
    obtain ⟨lexemes, hlexemes⟩ := List.head?_eq_some_iff.mp hmem
    rw [current, hlexemes] at hkind
    cases lexeme with
    | error error => rfl
    | ok token =>
        have htoken : token.kind = .endOfInput := hkind
        simp [Lexeme.isSemicolon, htoken]
  rw [statements, hskip, statement?, if_pos ⟨hkind, hnone⟩]

/-- What ends a segment that holds nothing is passed. -/
theorem statements_terminator {stop : Token} (hterminator : Segment.isTerminator stop = true)
    (hbehind : behind (.ok stop :: rest) = back) (hne : back ≠ []) (source : List Char)
    (database : Option String) (index : Nat) :
    (facing (.ok stop :: rest)).statements source database index
      = (facing back).statements source database index := by
  by_cases hkind : stop.kind = .semicolon
  · rw [behind, if_pos hkind] at hbehind
    subst hbehind
    rw [statements, skipSemicolons_cons hkind hne, ← statements]
  · have hstop : stop.kind = .endOfInput := by
      simpa [Segment.isTerminator, hkind] using hterminator
    rw [behind, if_neg hkind, if_pos hstop] at hbehind
    rw [hbehind]

/-- A reader goes through a segment as through what the segment gives, if it goes so through
what is behind the segment. -/
theorem statements_segment {source : List Char} {database : Option String}
    {segments : List Segment} (hinside : segment.Inside)
    (hterminator : Segment.isTerminator segment.terminator = true)
    (hbehind : behind (.ok segment.terminator :: rest) = back) (hne : back ≠ [])
    (hrest : ∀ index failed, (behindStatement failed back).statements source database index
      = Script.readFrom source database index failed segments) (index : Nat) (failed : Bool) :
    (behindStatement failed (segment.lexemes ++ .ok segment.terminator :: rest)).statements source
        database index
      = Script.readFrom source database index failed (segment :: segments) := by
  by_cases hempty : segment.lexemes = []
  · have hfacing : behindStatement failed (.ok segment.terminator :: rest)
        = facing (.ok segment.terminator :: rest) := by cases failed <;> rfl
    rw [Script.readFrom, hempty, List.nil_append, hfacing, if_pos List.isEmpty_nil,
      statements_terminator hterminator hbehind hne]
    exact hrest index false
  rw [Script.readFrom, if_neg (by simpa using hempty)]
  by_cases hconcealed : failed = true ∧ segment.startsWithError = true
  · obtain ⟨rfl, hstarts⟩ := hconcealed
    obtain ⟨error, lexemes, hlexemes⟩ := segment.startsWithError_iff.mp hstarts
    rw [if_pos (by simp [hstarts]), hlexemes]
    exact statements_ended rfl rfl source database index
  -- the reader goes on, so that its guard against standing still never holds it up
  have hshorter : back.length
      < (segment.lexemes ++ .ok segment.terminator :: rest).length := by
    have hle := length_behind_le (.ok segment.terminator :: rest)
    have hpos := List.length_pos_iff.mpr hempty
    rw [hbehind] at hle
    rw [List.length_append]
    omega
  rw [if_neg (by simpa using hconcealed), behindStatement_eq_facing hempty hconcealed, statements,
    skipSemicolons_facing hinside hempty, statement?_facing hinside hempty hterminator hbehind hne]
  cases segment.run source (Parser.statement database) index (segment.start source) with
  | ok statement => exact (if_pos hshorter).trans (congrArg _ (hrest (index + 1) false))
  | error error => exact (if_pos hshorter).trans (congrArg _ (hrest (index + 1) true))

/-- A reader gives what the segments give one by one. -/
theorem statements_segmented {lexemes : List Lexeme} {segments : List Segment}
    (h : Segmented lexemes segments) (source : List Char) (database : Option String)
    (index : Nat) (failed : Bool) :
    (behindStatement failed lexemes).statements source database index
      = Script.readFrom source database index failed segments := by
  induction h generalizing index failed with
  | @last segment hinside hstop =>
      have hterminator : Segment.isTerminator segment.terminator = true := by
        simp [Segment.isTerminator, hstop]
      have hbehind : behind [.ok segment.terminator] = [.ok segment.terminator] := by
        simp [behind, hstop]
      refine statements_segment hinside hterminator hbehind (by simp) (fun index failed => ?_)
        index failed
      have hreader : behindStatement failed [.ok segment.terminator]
          = ⟨[.ok segment.terminator], none⟩ := by cases failed <;> rfl
      rw [hreader]
      exact @statements_ended ⟨[.ok segment.terminator], none⟩ hstop rfl source database index
  | @cons segment lexemes segments hinside hsemicolon hrest ih =>
      have hterminator : Segment.isTerminator segment.terminator = true := by
        simp [Segment.isTerminator, hsemicolon]
      have hbehind : behind (.ok segment.terminator :: lexemes) = lexemes := by
        simp [behind, hsemicolon]
      exact statements_segment hinside hterminator hbehind hrest.ne_nil ih index failed

end Reader

/-- A script is read segment by segment. -/
theorem Script.statements_eq_readFrom (source : String) (database : Option String) :
    statements source database
      = readFrom source.toList database 0 false (segments source.toList) := by
  rw [← Reader.statements_segmented (segmented_segments source.toList) source.toList database]
  exact congrArg _ (Reader.start_eq_facing source.toList)

/-- The type of a column is read from the first segment of its text. -/
theorem columnType_eq_run {text : String} {segment : Segment} {segments : List Segment}
    (h : Script.segments text.toList = segment :: segments) :
    columnType text = segment.run text.toList Parser.columnType 0 0 := by
  have hsegmented := Script.segmented_segments text.toList
  rw [h] at hsegmented
  obtain ⟨rest, hlexemes, hinside, hterminator, -⟩ := hsegmented.exists_first
  unfold columnType
  dsimp only
  rw [Reader.start_eq_facing, hlexemes,
    Reader.run_facing Parser.restsAtEnd_columnType hinside hterminator]

/-! ## What is read from a script -/

namespace Script

/-- Every statement is what some segment is read as. -/
theorem exists_segment_of_mem_readFrom {source : List Char} {database : Option String}
    {statement : Statement} {segments : List Segment} {index : Nat} {failed : Bool}
    (h : .ok statement ∈ readFrom source database index failed segments) :
    ∃ segment ∈ segments, segment.lexemes ≠ [] ∧ ∃ index, segment.run source
      (Parser.statement database) index (segment.start source) = .ok statement := by
  induction segments generalizing index failed with
  | nil => simp [readFrom] at h
  | cons segment segments ih =>
      have hothers : ∀ {index failed},
          .ok statement ∈ readFrom source database index failed segments →
          ∃ other ∈ segment :: segments, other.lexemes ≠ [] ∧ ∃ index, other.run source
            (Parser.statement database) index (other.start source) = .ok statement := by
        intro index failed hmem
        obtain ⟨other, hother, hrest⟩ := ih hmem
        exact ⟨other, List.mem_cons_of_mem _ hother, hrest⟩
      rw [readFrom] at h
      split at h
      next => exact hothers h
      next hne =>
        split at h
        next => cases h
        next =>
          split at h
          next other hrun =>
            rcases List.mem_cons.mp h with heq | hmem
            · obtain rfl := Except.ok.inj heq
              exact ⟨segment, List.mem_cons_self, by simpa using hne, index, hrun⟩
            · exact hothers hmem
          next =>
            rcases List.mem_cons.mp h with heq | hmem
            · cases heq
            · exact hothers hmem

theorem regular_statements {source : String} {database : Option String} {statement : Statement}
    (h : .ok statement ∈ statements source database) : statement.Regular := by
  rw [statements_eq_readFrom] at h
  obtain ⟨segment, hsegment, -, index, hrun⟩ := exists_segment_of_mem_readFrom h
  exact Segment.regular_of_run hsegment hrun

/-- Every statement that is read from a script can be written and read again. -/
theorem sound_statements {source : String} {database : Option String} {statement : Statement}
    (h : .ok statement ∈ statements source database) : statement.Sound :=
  (regular_statements h).sound

end Script

end SchemaDelta.Sql
