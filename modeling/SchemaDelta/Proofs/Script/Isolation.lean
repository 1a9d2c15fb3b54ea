import SchemaDelta.Proofs.Parsing.Reader

/-!
# Isolation of statements

The semicolons cut the lexemes of a script into segments.  Reading a script
should give one item for each segment that holds anything, in order and
whatever the other segments hold.  It gives a prefix of these items, and all of
them exactly when no rejected segment stands right in front of one that begins
with a lexical error.
-/

namespace SchemaDelta.Sql

/-! ## Segments and semicolons -/

/-- Only the last lexeme is the end of the input. -/
theorem Cursor.lexemes_eq_append_end (cursor : Cursor) :
    ∃ front last, cursor.lexemes = front ++ [last] ∧ last.isEnd = true ∧
      ∀ lexeme ∈ front, lexeme.isEnd = false := by
  fun_induction Cursor.lexemes cursor with
  | case1 cursor hend => exact ⟨[], cursor.next.1, rfl, hend, by simp⟩
  | case2 cursor hend ih =>
      obtain ⟨front, last, heq, hlast, hfront⟩ := ih
      refine ⟨cursor.next.1 :: front, last, by rw [heq]; rfl, hlast, ?_⟩
      intro lexeme hlexeme
      rcases List.mem_cons.mp hlexeme with rfl | hlexeme
      · simpa using hend
      · exact hfront lexeme hlexeme

namespace Segment

theorem map_lexemes_push (lexeme : Lexeme) (segments : List Segment) :
    (push lexeme segments).map (·.lexemes) =
      (segments.map (·.lexemes)).modifyHead (lexeme :: ·) := by
  cases segments <;> rfl

/-- The segments are what the semicolons leave of the lexemes in front of the
end. -/
theorem map_lexemes_split {front : List Lexeme} {last : Lexeme}
    (hlast : last.isEnd = true) (hfront : ∀ lexeme ∈ front, lexeme.isEnd = false) :
    (split (front ++ [last])).map (·.lexemes) = front.splitOnP Lexeme.isSemicolon := by
  induction front with
  | nil =>
      cases last with
      | error error => simp [Lexeme.isEnd] at hlast
      | ok token =>
          have hkind : token.kind = .endOfInput := by simpa [Lexeme.isEnd] using hlast
          simp [split, isTerminator, hkind]
  | cons first rest ih =>
      have hrest := ih fun lexeme hmem => hfront lexeme (List.mem_cons_of_mem _ hmem)
      have hfirst := hfront first List.mem_cons_self
      rw [List.splitOnP_cons_eq_if_modifyHead, ← hrest]
      cases first with
      | error error =>
          simp only [List.cons_append, split, map_lexemes_push]
          rfl
      | ok token =>
          have hkind : token.kind ≠ .endOfInput := by simpa [Lexeme.isEnd] using hfirst
          by_cases hsemicolon : token.kind = .semicolon
          · simp [split, isTerminator, Lexeme.isSemicolon, hsemicolon]
          · simp [split, isTerminator, Lexeme.isSemicolon, hsemicolon, hkind,
              map_lexemes_push]

/-! ## Segments by themselves -/

/-- What a segment gives by itself, as the statement with a number. -/
def statement (source : List Char) (database : Option String) (index : Nat)
    (segment : Segment) : Except StatementError Statement :=
  segment.run source (Parser.statement database) index (segment.start source)

/-- Whether the segment gives an error.  Its number only shows in the error. -/
def isRejected (source : List Char) (database : Option String) (segment : Segment) : Bool :=
  !(segment.statement source database 0).isOk

theorem isOk_run {α : Type} (source : List Char) (parser : Parser α)
    (index other start : Nat) (segment : Segment) :
    (segment.run source parser index start).isOk =
      (segment.run source parser other start).isOk := by
  unfold run
  dsimp only
  split
  next result after _ =>
    split <;> simp_all [Except.isOk, Except.toBool]

theorem isRejected_of_statement_eq_ok {source : List Char} {database : Option String}
    {index : Nat} {segment : Segment} {statement : Statement}
    (h : segment.statement source database index = .ok statement) :
    segment.isRejected source database = false := by
  unfold isRejected Segment.statement
  rw [isOk_run source _ 0 index]
  unfold Segment.statement at h
  rw [h]
  rfl

theorem isRejected_of_statement_eq_error {source : List Char} {database : Option String}
    {index : Nat} {segment : Segment} {error : StatementError}
    (h : segment.statement source database index = .error error) :
    segment.isRejected source database = true := by
  unfold isRejected Segment.statement
  rw [isOk_run source _ 0 index]
  unfold Segment.statement at h
  rw [h]
  rfl

theorem lexemes_ne_nil_of_startsWithError {segment : Segment}
    (h : segment.startsWithError = true) : segment.lexemes ≠ [] := by
  intro hnil
  simp [startsWithError, lexError?, hnil] at h

/-- Whether a rejected segment keeps the one right behind it from being read. -/
def Conceals (source : List Char) (database : Option String) (first second : Segment) :
    Prop :=
  first.lexemes ≠ [] ∧ first.isRejected source database = true ∧
    second.startsWithError = true

end Segment

namespace Script

/-- One item for each segment that holds anything, numbered from `index` on. -/
def isolatedFrom (source : List Char) (database : Option String) (index : Nat)
    (segments : List Segment) : List (Except StatementError Statement) :=
  (segments.filter fun segment => !segment.lexemes.isEmpty).mapIdx fun k segment =>
    segment.statement source database (index + k)

def isolated (source : String) (database : Option String) :
    List (Except StatementError Statement) :=
  isolatedFrom source.toList database 0 (segments source.toList)

/-- Some segment conceals its successor. -/
def HasConcealed (source : List Char) (database : Option String) (segments : List Segment) :
    Prop :=
  ∃ first second, [first, second] <:+: segments ∧ first.Conceals source database second

variable {source : List Char} {database : Option String}

theorem isolatedFrom_cons_empty {index : Nat} {segment : Segment} {segments : List Segment}
    (h : segment.lexemes = []) :
    isolatedFrom source database index (segment :: segments) =
      isolatedFrom source database index segments := by
  simp [isolatedFrom, h]

theorem isolatedFrom_cons {index : Nat} {segment : Segment} {segments : List Segment}
    (h : segment.lexemes ≠ []) :
    isolatedFrom source database index (segment :: segments) =
      segment.statement source database index
        :: isolatedFrom source database (index + 1) segments := by
  simp [isolatedFrom, h, List.mapIdx_cons, Nat.add_comm, Nat.add_left_comm]

theorem hasConcealed_cons {segment : Segment} {segments : List Segment} :
    HasConcealed source database (segment :: segments) ↔
      (∃ second ∈ segments.head?, segment.Conceals source database second) ∨
        HasConcealed source database segments := by
  unfold HasConcealed
  constructor
  · rintro ⟨first, second, hinfix, hconceals⟩
    rcases List.infix_cons_iff.mp hinfix with hprefix | hinfix
    · obtain ⟨rest, hrest⟩ := hprefix
      simp only [List.cons_append, List.nil_append, List.cons.injEq] at hrest
      obtain ⟨rfl, rfl⟩ := hrest
      exact Or.inl ⟨second, by simp, hconceals⟩
    · exact Or.inr ⟨first, second, hinfix, hconceals⟩
  · rintro (⟨second, hsecond, hconceals⟩ | ⟨first, second, hinfix, hconceals⟩)
    · obtain ⟨rest, rfl⟩ := List.head?_eq_some_iff.mp hsecond
      exact ⟨segment, second, (List.prefix_append [segment, second] rest).isInfix, hconceals⟩
    · exact ⟨first, second, hinfix.trans (List.suffix_cons segment segments).isInfix,
        hconceals⟩

/-! ## Reading on -/

/-- A script is read as far as no segment is concealed, `failed` being whether
the segment in front of them was rejected. -/
theorem readFrom_isolated (source : List Char) (database : Option String) (index : Nat)
    (failed : Bool) (segments : List Segment) :
    readFrom source database index failed segments <+:
        isolatedFrom source database index segments ∧
      (readFrom source database index failed segments =
          isolatedFrom source database index segments ↔
        ¬ (failed = true ∧ ∃ next ∈ segments.head?, next.startsWithError = true) ∧
          ¬ HasConcealed source database segments) := by
  induction segments generalizing index failed with
  | nil => simp [readFrom, isolatedFrom, HasConcealed]
  | cons segment segments ih =>
      rw [readFrom, hasConcealed_cons]
      split
      next hempty =>
        have hnil : segment.lexemes = [] := by simpa using hempty
        have hstarts : segment.startsWithError ≠ true := fun h =>
          Segment.lexemes_ne_nil_of_startsWithError h hnil
        rw [isolatedFrom_cons_empty hnil]
        simpa [Segment.Conceals, hnil, hstarts] using ih index false
      next hempty =>
        have hne : segment.lexemes ≠ [] := by simpa using hempty
        rw [isolatedFrom_cons hne]
        split
        next hconcealed =>
          have hboth : failed = true ∧ segment.startsWithError = true := by
            simpa using hconcealed
          simp [hboth.1, hboth.2]
        next hread =>
          have hnot : ¬ (failed = true ∧ segment.startsWithError = true) := by
            simpa using hread
          cases hstatement : segment.statement source database index with
          | ok statement =>
              have haccepted := Segment.isRejected_of_statement_eq_ok hstatement
              unfold Segment.statement at hstatement
              rw [hstatement]
              simpa [Segment.Conceals, haccepted, hnot, List.prefix_cons_inj] using
                ih (index + 1) false
          | error error =>
              have hrejected := Segment.isRejected_of_statement_eq_error hstatement
              unfold Segment.statement at hstatement
              rw [hstatement]
              simpa [Segment.Conceals, hrejected, hne, hnot, List.prefix_cons_inj] using
                ih (index + 1) true

/-- The segments of a script are what its semicolons separate; reading gives a
prefix of their items, and the whole of them unless a segment is concealed. -/
theorem statements_isolated_iff (source : String) (database : Option String) :
    (segments source.toList).map (·.lexemes) =
        (lexemes source.toList).dropLast.splitOnP Lexeme.isSemicolon ∧
      statements source database <+: isolated source database ∧
      (statements source database = isolated source database ↔
        ¬ HasConcealed source.toList database (segments source.toList)) := by
  obtain ⟨front, last, hlexemes, hlast, hfront⟩ :=
    (Cursor.atStart source.toList).lexemes_eq_append_end
  have hsplit : (segments source.toList).map (·.lexemes) =
      (lexemes source.toList).dropLast.splitOnP Lexeme.isSemicolon := by
    unfold segments lexemes
    rw [hlexemes, Segment.map_lexemes_split hlast hfront, List.dropLast_concat]
  have hread := readFrom_isolated source.toList database 0 false (segments source.toList)
  rw [statements_eq_readFrom]
  refine ⟨hsplit, hread.1, hread.2.trans ?_⟩
  simp

/-- Two segments that do not lex give one item. -/
theorem statements_concealed :
    (statements "];]" none).length = 1 ∧ (isolated "];]" none).length = 2 := by
  decide +kernel

end Script

end SchemaDelta.Sql
