import SchemaDelta.Proofs.Parsing.Sound
import SchemaDelta.Proofs.Script.Locality

/-!
# Types of columns are read by themselves

A text that is read as the type of a column is one segment without a lexical error, all of
whose tokens belong to the type and its options.  The type that it gives can be written, and
is read from what is written.
-/

namespace SchemaDelta.Sql

open SchemaDelta.Sql.Parser

variable {text : String} {dataType : DataType} {options : List ColumnOption}

/-! ## Running on a whole text -/

/-- A type and its options are read up to the end of the input. -/
theorem parse_columnType_eq_ok_iff {input after : Input} :
    Parser.columnType.parse input = (.ok (dataType, options), after) ↔
      ∃ middle, Parser.dataType.parse input = (.ok dataType, middle)
        ∧ columnOptions.parse middle = (.ok options, after)
        ∧ after.current.kind = .endOfInput := by
  constructor
  · intro hparse
    obtain ⟨read, middle, htype, hrest⟩ := exists_of_parse_bind hparse
    obtain ⟨others, last, hoptions, hrest⟩ := exists_of_parse_bind hrest
    rw [parse_bind, parse_atKind] at hrest
    by_cases hkind : last.current.kind = .endOfInput
    · obtain ⟨⟨rfl, rfl⟩, rfl⟩ : (read = dataType ∧ others = options) ∧ last = after := by
        simpa [hkind, parse_pure] using hrest
      exact ⟨middle, htype, hoptions, hkind⟩
    · rw [beq_eq_false_iff_ne.mpr hkind] at hrest
      obtain ⟨_, _, hfails, -⟩ := exists_of_parse_bind hrest
      exact absurd hfails (parse_unexpected_ne_ok _ _ _ _)
  · rintro ⟨middle, htype, hoptions, hkind⟩
    simp [Parser.columnType, parse_bind, htype, hoptions, parse_atKind, hkind, parse_pure]

/-- What is accepted up to the end of the input is read from the text of the pieces. -/
theorem columnType_spelling {pieces : List Piece} (hlegible : Legible pieces)
    (haccepts : Accepts Parser.columnType pieces (dataType, options) (· = .endOfInput)) :
    columnType (String.ofList (spelling pieces)) = .ok (dataType, options) := by
  obtain ⟨stop, hkind, hsegments⟩ := Script.exists_segments_spelling hlegible
  have hstands : StandsAt (spelling pieces) 0 pieces := ⟨[], [], by simp, by simp⟩
  obtain ⟨_, last, rfl, hparse⟩ := haccepts ⟨spelling pieces, [], stop, 0⟩ 0 hstands hkind
  rw [List.append_nil] at hparse
  rw [← String.toList_ofList (l := spelling pieces)] at hsegments
  rw [columnType_eq_run hsegments, String.toList_ofList]
  exact Segment.run_of_parse hparse 0 0

/-- A text that is read begins with a segment from which the type and its options are read. -/
theorem exists_segment_of_columnType (h : columnType text = .ok (dataType, options)) :
    ∃ segment segments after, Script.segments text.toList = segment :: segments
      ∧ Parser.columnType.parse (segment.input text.toList) = (.ok (dataType, options), after)
      ∧ (after.tokens = [] → segment.lexError? = none) := by
  obtain ⟨segment, segments, hsegments⟩ :=
    List.exists_cons_of_ne_nil (Script.segments_ne_nil text.toList)
  rw [columnType_eq_run hsegments] at h
  obtain ⟨after, hparse, hnone⟩ := Segment.parse_of_run h
  exact ⟨segment, segments, after, hsegments, hparse, hnone⟩

/-! ## What is printed is read -/

theorem accepts_columnType {pieces : List Piece}
    (h : Accepts Parser.dataType pieces dataType afterType) :
    Accepts Parser.columnType pieces (dataType, []) (· = .endOfInput) := by
  have hends : ∀ kind : TokenKind,
      kind = .endOfInput → anything kind ∧ endsOptions kind = true := by
    rintro _ rfl
    exact ⟨trivial, rfl⟩
  have hoptions : Accepts columnOptions [] [] (· = .endOfInput) := by
    have hnone := accepts_columnOptions (fun _ => trivial) hends (List.forall_mem_nil _)
    exact hnone
  have hend : Accepts (atKind .endOfInput) [] true (· = .endOfInput) :=
    accepts_atKind_self .endOfInput
  refine h.last (hoptions.last (hend.last (reads_pure rfl) fun _ hkind => hkind)
    fun _ hkind => hkind) ?_
  rintro _ rfl
  exact ⟨by simp [notIdentifier], by simp⟩

/-- The type that is read from a text can be written. -/
theorem sound_of_columnType (h : columnType text = .ok (dataType, options)) :
    IsTypeName dataType.name ∧ dataType.args.Fits := by
  obtain ⟨segment, segments, after, hsegments, hparse, -⟩ := exists_segment_of_columnType h
  obtain ⟨middle, htype, -⟩ := parse_columnType_eq_ok_iff.mp hparse
  exact (keeps_dataType _ _ _ (Segment.standing_input (hsegments ▸ List.mem_cons_self)) htype).1

/-- The text of a type that was read is read as this type, without options. -/
theorem columnType_sql (h : columnType text = .ok (dataType, options)) :
    columnType dataType.sql = .ok (dataType, []) := by
  obtain ⟨hname, hfits⟩ := sound_of_columnType h
  obtain ⟨pieces, hspelling, hlegible, haccepts⟩ :=
    exists_dataTypePieces (List.forall_mem_nil _) hname hfits legible_nil delimited_nil
  rw [List.append_nil] at hlegible
  have htext := columnType_spelling hlegible (accepts_columnType haccepts)
  rwa [hspelling, List.nil_append, String.ofList_toList] at htext

/-- Values with quotes, a backslash and a line break, from a text with a comment and options. -/
theorem columnType_sql_quoted :
    columnType (DataType.sql ⟨"enum", .values ["it's", "a\\b", "c\nd", ""]⟩)
      = .ok (⟨"enum", .values ["it's", "a\\b", "c\nd", ""]⟩, []) := by
  have hread : columnType "enum('it''s', 'a\\\\b', /* ) */ 'c\\nd', '') UNIQUE KEY DEFAULT 'x'"
      = .ok (⟨"enum", .values ["it's", "a\\b", "c\nd", ""]⟩,
          [.unique, .default (.string "x")]) := by
    rw [columnType_of_toList String.toList_ofList]
    decide +kernel
  exact columnType_sql hread

end SchemaDelta.Sql
