import SchemaDelta.Proofs.Build.Source
import SchemaDelta.Proofs.Catalog.BareDefault

/-!
# Defaults without parentheses

Some servers report an expression without the parentheses of its declaration.  They are put
back unless the text is taken for something else first: a string, `NULL`, the current
timestamp, or an expression that has its parentheses.  For the last it is enough that the text
begins with a parenthesis, as that of `((1)+(2))` does.  So the default is the one of a dump
exactly when the parentheses are put back.
-/

namespace SchemaDelta

open Sql Sql.Parser

/-! ## Texts get no longer by being read -/

theorem Text.length_trim_le (cs : List Char) : (trim cs).length ≤ cs.length := by
  have hstart := (List.dropWhile_sublist isBlank (l := cs)).length_le
  have hend := (List.dropWhile_sublist isBlank (l := (trimStart cs).reverse)).length_le
  rw [List.length_reverse] at hend
  rw [trim, trimEnd, List.length_reverse]
  exact hend.trans hstart

theorem Sql.length_unescape_le (cs : List Char) : (unescape cs).length ≤ cs.length := by
  fun_induction unescape cs with
  | case1 c cs ih => simp only [List.length_cons]; omega
  | case2 cs ih => simp only [List.length_cons]; omega
  | case3 c cs _ _ ih => simpa using ih
  | case4 => simp

theorem Catalog.length_stringValue?_le {text value : String}
    (h : stringValue? text = some value) : value.toList.length ≤ text.toList.length := by
  unfold stringValue? at h
  split at h
  next token last _ hlexemes =>
    split at h
    next content hkind =>
      obtain rfl : content = value := Option.some.inj h
      change Cursor.lexemes (Cursor.atStart text.toList) = _ at hlexemes
      have hnotEnd : (Cursor.atStart text.toList).next.1.isEnd = false := by
        refine Bool.eq_false_iff.mpr fun hend => ?_
        rw [Cursor.lexemes_of_isEnd hend] at hlexemes
        simp at hlexemes
      rw [Cursor.lexemes_of_not_isEnd hnotEnd] at hlexemes
      have hnext := (List.cons.inj hlexemes).1
      obtain ⟨piece, hrest, rfl, -, hwhole, -⟩ :=
        Cursor.next_resumes (Prod.ext hnext rfl) (by simp [hkind])
      have hpiece : piece.kind = .string content := hkind
      obtain ⟨body, hbody, rfl⟩ := Whole.string (hpiece ▸ hwhole)
      have hlength := congrArg List.length hrest
      have hunescape := length_unescape_le body
      simp only [Cursor.atStart, Piece.spelling, hbody, List.length_append, List.length_cons]
        at hlength
      rw [String.toList_ofList]
      omega
    next => cases h
  next => cases h

/-! ## Expressions in parentheses -/

theorem length_parenthesized (inner : String) :
    ("(" ++ inner ++ ")").toList.length = inner.toList.length + 2 := by
  rw [String.toList_append, String.toList_append, List.length_append, List.length_append]
  change 1 + inner.toList.length + 1 = _
  omega

namespace DefaultValue

theorem ofExpression_parenthesized (inner : String) :
    ofExpression ("(" ++ inner ++ ")") = .expression ("(" ++ inner ++ ")") := by
  have htext : ("(" ++ inner ++ ")").toList = '(' :: (inner.toList ++ [')']) := by simp
  have htrim : Text.trim ("(" ++ inner ++ ")").toList = ("(" ++ inner ++ ")").toList := by
    rw [htext]
    refine Text.trim_eq_self rfl ?_
    rw [← List.cons_append, List.getLast?_concat]
    rfl
  have hwords : ∀ rest, timestampWords.findSome? (fun word => word.toList.isPrefixOf? ('(' :: rest))
      = none := fun rest => rfl
  have hupper : Char.toUpper '(' = '(' := by decide
  have hnone : currentTimestamp? ("(" ++ inner ++ ")").toList = none := by
    rw [htext, currentTimestamp?]
    simp only [List.map_cons, hupper, hwords]
  rw [ofExpression_eq htrim, hnone]
  rfl

/-- What is read as an expression is that text or the current timestamp. -/
theorem ofExpression_text (text : String) :
    (ofExpression text).text.toList = Text.trim text.toList
      ∨ (ofExpression text).text.toList.head? = some 'C' := by
  simp only [ofExpression, DefaultValue.text]
  cases hcurrent : currentTimestamp? (Text.trim text.toList) with
  | none => exact .inl String.toList_ofList
  | some canonical =>
      rw [Option.getD_some]
      right
      rcases currentTimestamp?_eq_some hcurrent with rfl | ⟨digits, -, rfl⟩
      · rfl
      · exact congrArg List.head? (toList_timestampCall digits)

/-- No parentheses are added by reading an expression. -/
theorem text_ofExpression_ne (inner : String) :
    (ofExpression inner).text ≠ "(" ++ inner ++ ")" := by
  intro h
  rcases ofExpression_text inner with htrim | hhead
  · have hlength := congrArg List.length htrim
    have hle := Text.length_trim_le inner.toList
    rw [h, length_parenthesized] at hlength
    omega
  · simp [h] at hhead

end DefaultValue

theorem Sql.Parser.IsGroup.exists_parenthesized {text : String} (h : IsGroup text) :
    ∃ inner, text = "(" ++ inner ++ ")" := by
  obtain ⟨piece, inner, hkind, hcloses, hlegible, rfl⟩ := h
  obtain ⟨last, hend, hright⟩ := hcloses.getLast?_append [piece]
  have hopen : piece.text = ['('] := Whole.leftParen (hkind ▸ hlegible.whole)
  have hclose : last.text = [')'] := Whole.rightParen (hright ▸ hlegible.whole_of_getLast? hend)
  have hgroup : (groupText (piece :: inner)).getLast? = last.text.getLast? :=
    getLast?_groupText hend (by simp [hclose])
  rw [hclose, groupText, hopen] at hgroup
  rcases List.eq_nil_or_concat (spelling inner) with hnil | ⟨front, c, hfront⟩
  · simp [hnil] at hgroup
  · rw [hfront, List.concat_eq_append, ← List.append_assoc, List.getLast?_concat] at hgroup
    obtain rfl : c = ')' := Option.some.inj hgroup
    exact ⟨String.ofList front, String.toList_injective (by simp [groupText, hopen, hfront])⟩

namespace DefaultValue

/-- An expression that begins with a parenthesis is read from pieces that do. -/
theorem leftParen_of_ofExpression {piece last : Piece} {pieces : List Piece} {text : String}
    (h : Legible (piece :: pieces)) (hlast : (piece :: pieces).getLast? = some last)
    (hnumber : ∀ text, last.kind ≠ .number text)
    (hvalue : ofExpression (String.ofList (groupText (piece :: pieces))) = .expression text)
    (hopen : text.toList.head? = some '(') : piece.kind = .leftParen := by
  have htext : (ofExpression (String.ofList (groupText (piece :: pieces)))).text = text := by
    rw [hvalue]
    rfl
  refine h.whole.eq_leftParen ?_
  rcases ofExpression_text (String.ofList (groupText (piece :: pieces))) with htrim | hhead
  · rw [htext, String.toList_ofList, trim_groupText h hlast hnumber] at htrim
    have hne := h.whole.ne_nil
    rw [htrim] at hopen
    cases hpiece : piece.text with
    | nil => exact absurd hpiece hne
    | cons c cs => simpa [groupText, hpiece] using hopen
  · rw [htext, hopen] at hhead
    cases hhead

theorem not_leftParen_of_number {number text : String} {c : Char}
    (hhead : number.toList.head? = some c) (hc : c ∈ numberStarts)
    (hvalue : Build.defaultOf? (.number number) = some (.expression text)) :
    text.toList.head? ≠ some '(' := by
  obtain ⟨_, -, hinteger⟩ | ⟨-, hexpression⟩ := Build.defaultOf?_number_cases hvalue
  · cases hinteger
  · obtain rfl : text = number := expression.inj hexpression
    exact (head?_ne_of_number hhead hc).2

/-- Only groups have parentheses around them. -/
theorem exists_parenthesized_of_ofPieces {literal : Literal} {text : String}
    (h : OfPieces literal) (hvalue : Build.defaultOf? literal = some (.expression text))
    (hopen : text.toList.head? = some '(') : ∃ inner, text = "(" ++ inner ++ ")" := by
  cases h with
  | null => cases hvalue
  | string value => cases hvalue
  | number hwhole =>
      obtain ⟨c, hhead, hdigit⟩ := (Option.any_eq_true _ _).mp hwhole.number.2
      exact absurd hopen (not_leftParen_of_number hhead (mem_numberStarts_of_isDigit hdigit) hvalue)
  | negative hwhole =>
      exact absurd hopen (not_leftParen_of_number (c := '-') (by simp) (by decide) hvalue)
  | @binary binary hwhole =>
      have hlegible : Legible [⟨[], .binary binary, binary.toList⟩] :=
        legible_nil.cons (by simp) hwhole (by simp) (by simp)
      have hleft := leftParen_of_ofExpression hlegible rfl (by simp)
        (by simpa [groupText] using Option.some.inj hvalue) hopen
      cases hleft
  | group hgroup =>
      obtain ⟨inner, rfl⟩ := hgroup.exists_parenthesized
      have hsame := Option.some.inj hvalue
      rw [ofExpression_parenthesized] at hsame
      exact ⟨inner, (DefaultValue.expression.inj hsame).symm⟩
  | @word word hlegible hword _ =>
      have hnumber : ∀ text, word.kind ≠ .number text := by
        intro text hkind
        simp [hkind, isWordKind] at hword
      have hleft := leftParen_of_ofExpression hlegible rfl hnumber (Option.some.inj hvalue) hopen
      simp [hleft, isWordKind] at hword
  | @call word piece inner hlegible hword _ _ hcloses =>
      obtain ⟨last, hend, hright⟩ := hcloses.getLast?_append [word, piece]
      have hleft := leftParen_of_ofExpression hlegible hend (by simp [hright])
        (Option.some.inj hvalue) hopen
      simp [hleft, isWordKind] at hword

end DefaultValue

/-! ## Defaults of definitions that were read -/

namespace Build

variable {mapping : TypeMapping} {value : DefaultValue}

/-- A default is one that the column had, or an option gave it. -/
theorem default_foldl_cases {options : List ColumnOption} {column : Column}
    (h : (options.foldl withOption column).default = some value) :
    column.default = some value ∨
      ∃ literal, .default literal ∈ options ∧ defaultOf? literal = some value := by
  induction options generalizing column with
  | nil => exact .inl h
  | cons option options ih =>
      rcases ih h with hcolumn | ⟨literal, hmem, hvalue⟩
      · cases option with
        | default literal => exact .inr ⟨literal, List.mem_cons_self, hcolumn⟩
        | _ => exact .inl hcolumn
      · exact .inr ⟨literal, List.mem_cons_of_mem _ hmem, hvalue⟩

/-- Whatever the types are mapped to, a default that was read can be read again. -/
theorem readable_default {written : ColumnDef} (h : written.Sound)
    (hvalue : (column mapping written).default = some value) : value.Readable := by
  have hstart : (typedColumn mapping written.name written.dataType).default = none := by
    rw [← typed_typedColumn]
    rfl
  rw [column_eq_foldl] at hvalue
  rcases default_foldl_cases hvalue with hnone | ⟨literal, hmem, hliteral⟩
  · rw [hstart] at hnone
    cases hnone
  · exact h.default literal hmem value hliteral

end Build

namespace Catalog

/-- Nothing is seen in the text but an expression that had parentheses around it. -/
structure Restored (text : String) : Prop where
  quote : stringValue? text = none
  null : sameName text "NULL" = false
  timestamp : meansTimestamp text = false
  opening : text.toList.head? ≠ some '('

theorem text_defaultOf?_generated_iff {inner extra : String}
    (hextra : hasWord "DEFAULT_GENERATED" extra = true) :
    (Build.defaultOf? (defaultLiteral inner extra)).map (·.text) = some ("(" ++ inner ++ ")")
      ↔ Restored inner := by
  have hexpression : ∀ text : String,
      (Build.defaultOf? (.expression text)).map (·.text)
        = some (DefaultValue.ofExpression text).text := fun text => rfl
  have hbare := DefaultValue.text_ofExpression_ne inner
  constructor
  · intro h
    unfold defaultLiteral at h
    split at h
    next value hvalue =>
      have hlength := length_stringValue?_le hvalue
      obtain rfl : value = "(" ++ inner ++ ")" := Option.some.inj h
      rw [length_parenthesized] at hlength
      omega
    next hstring =>
      split at h
      next => cases h
      next hnull =>
        split at h
        next => exact absurd (Option.some.inj h) hbare
        next htimestamp =>
          split at h
          next => exact absurd (Option.some.inj h) hbare
          next hopen =>
            exact ⟨hstring, Bool.eq_false_iff.mpr hnull, Bool.eq_false_iff.mpr htimestamp, hopen⟩
  · rintro ⟨hstring, hnull, htimestamp, hopen⟩
    simp only [defaultLiteral, hstring, hnull, htimestamp, hextra, Bool.false_eq_true, if_false,
      if_true, if_neg hopen]
    rw [hexpression, DefaultValue.ofExpression_parenthesized]
    rfl

variable {mapping : TypeMapping}

/-- A default in parentheses that was read has a text in parentheses.  Where a catalog reports
what is between them, the default of the assembled column does not differ from the one that
was read exactly if the parentheses are put back. -/
theorem assemble_generatedDefault_iff {source : String} {named : Option String}
    {statement : CreateTable}
    (hread : .ok (.createTable statement) ∈ Script.statements source named)
    {written : ColumnDef} (hwritten : written ∈ statement.columns) {text : String}
    (hdefault : (Build.column mapping written).default = some (.expression text))
    (hopen : text.toList.head? = some '(') :
    ∃ inner, text = "(" ++ inner ++ ")" ∧
      ∀ (catalog : Catalog) (database : String) (output : BuildOutput) (row : ColumnRow),
        catalog.assemble database mapping = .ok output → row ∈ catalog.columns →
          row.table ∈ catalog.tables → row.default = some inner →
            hasWord "DEFAULT_GENERATED" row.extra = true →
              ∃ table column, output.schema.table? row.table = some table ∧
                table.column? row.name = some column ∧
                  (ColumnProperty.default.differs column (Build.column mapping written) = false
                    ↔ Restored inner) := by
  have hsound := Build.sound_of_mem_columns (Script.sound_statements hread) _ hwritten
  obtain ⟨literal, hpieces, hliteral⟩ := (Build.readable_default hsound hdefault).exists_ofPieces
  obtain ⟨inner, rfl⟩ :=
    DefaultValue.exists_parenthesized_of_ofPieces hpieces hliteral hopen
  refine ⟨inner, rfl, fun catalog database output row hassemble hrow hlisted hinner hextra => ?_⟩
  obtain ⟨read, table, nullable, hcolumnDef, htable, -, hcolumn⟩ :=
    exists_column_of_row hassemble hrow hlisted
  refine ⟨table, _, htable, hcolumn, ?_⟩
  have hvalue : (Build.column mapping read).default
      = Build.defaultOf? (defaultLiteral inner row.extra) :=
    Build.default_of_row hcolumnDef hinner
  rw [ColumnProperty.differs, bne_eq_false_iff_eq, hdefault, hvalue]
  exact text_defaultOf?_generated_iff hextra

end Catalog

def Sql.ColumnDef.ofExpression (text : String) (stop : Nat) : ColumnDef :=
  ⟨"c", ⟨"VARCHAR", .length 5⟩, [.default (.expression text)], ⟨16, stop⟩⟩

def Sql.CreateTable.ofExpression (text : String) (stop : Nat) : CreateTable :=
  ⟨"t", false, false, [.column (.ofExpression text stop)], ⟨0, stop + 1⟩⟩

def Catalog.ofGenerated (inner : String) : Catalog where
  tables := ["t"]
  columns := [⟨"t", "c", "varchar(5)", true, some inner, "DEFAULT_GENERATED", ""⟩]
  indexes := []
  foreignKeys := []

theorem Catalog.assemble_generatedDefault_iff_call :
    .ok (.createTable (.ofExpression "(uuid())" 45))
        ∈ Script.statements "CREATE TABLE t (c VARCHAR(5) DEFAULT (uuid()))" none ∧
      (ofGenerated "uuid()").assemble "shop" .mysql
          = .ok ⟨.ofText (some "shop") (.expression "(uuid())"), []⟩ ∧
        Restored "uuid()" ∧
          ∃ table column,
            (Schema.ofText (some "shop") (.expression "(uuid())")).table? "t" = some table ∧
              table.column? "c" = some column ∧
                ColumnProperty.default.differs column
                  (Build.column .mysql (.ofExpression "(uuid())" 45)) = false := by
  have hread : .ok (.createTable (.ofExpression "(uuid())" 45))
      ∈ Script.statements "CREATE TABLE t (c VARCHAR(5) DEFAULT (uuid()))" none := by
    rw [Script.statements_of_toList String.toList_ofList]
    decide +kernel
  have hassemble : (ofGenerated "uuid()").assemble "shop" .mysql
      = .ok ⟨.ofText (some "shop") (.expression "(uuid())"), []⟩ := by
    rw [TypeMapping.mysql_eq]
    decide +kernel
  have hrestored : Restored "uuid()" :=
    ⟨by decide +kernel, by decide, by decide, by decide⟩
  have hdefault : (Build.column .mysql (.ofExpression "(uuid())" 45)).default
      = some (.expression "(uuid())") := by
    decide +kernel
  obtain ⟨inner, htext, hassembled⟩ :=
    assemble_generatedDefault_iff hread (List.mem_singleton_self _) hdefault (by decide)
  obtain rfl : inner = "uuid()" := by
    have hlist : "uuid()".toList ++ [')'] = inner.toList ++ [')'] := by
      simpa using congrArg String.toList htext
    exact String.toList_injective (List.append_cancel_right hlist).symm
  obtain ⟨table, column, htable, hcolumn, hiff⟩ := hassembled _ _ _ _ hassemble
    (List.mem_singleton_self _) (List.mem_singleton_self _) rfl (by decide)
  exact ⟨hread, hassemble, hrestored, table, column, htable, hcolumn, hiff.mpr hrestored⟩

/-- Parentheses in front are taken for the ones around the expression, so that a database
differs from its dump. -/
theorem Catalog.assemble_keeps_parentheses :
    ({} : BuildSettings).build "CREATE TABLE t (c VARCHAR(5) DEFAULT ((1)+(2)))"
        = .ok ⟨.ofText none (.expression "((1)+(2))"), []⟩ ∧
      (ofGenerated "(1)+(2)").assemble "shop" .mysql
          = .ok ⟨.ofText (some "shop") (.expression "(1)+(2)"), []⟩ ∧
        ColumnProperty.default.differs (.ofText (.expression "(1)+(2)"))
            (.ofText (.expression "((1)+(2))")) = true ∧
          ((Schema.ofText (some "shop") (.expression "(1)+(2)")).diff
            (.ofText none (.expression "((1)+(2))"))).isEmpty = false := by
  refine ⟨?_, ?_, by decide, by decide +kernel⟩
  · rw [BuildSettings.build_of_toList _ String.toList_ofList, TypeMapping.mysql_eq]
    decide +kernel
  · rw [TypeMapping.mysql_eq]
    decide +kernel

end SchemaDelta
