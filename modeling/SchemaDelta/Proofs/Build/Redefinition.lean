import SchemaDelta.Diff.ColumnProperty
import SchemaDelta.Proofs.Build.Source
import SchemaDelta.Proofs.Parsing.Script

/-!
# What definitions tell about columns

A column is changed by writing a new definition of it, so two versions of a column are only
told apart if their definitions are.  Not all that is known of a column is part of its
definition: binary columns are written without a length where the dialect calls them `BLOB`,
and strings of no length are written with the usual one.  The columns that definitions are
read as again are told apart, and all others are taken for one of them.
-/

namespace SchemaDelta

open Sql

/-! ## The column that a definition is read as -/

/-- The column that the definition of a column stands for. -/
def Column.asWritten (column : Column) : Column :=
  match column.kind with
  | .string => { column with length := some (column.length.getD Dialect.defaultStringLength) }
  | .binary =>
      if column.typeName = "binary" ∧ column.length ≠ none then column
      else { column with typeName := "blob", length := none }
  | _ => column

namespace Column

variable {column : Column}

theorem asWritten_of_kind (hstring : column.kind ≠ .string) (hbinary : column.kind ≠ .binary) :
    column.asWritten = column := by
  unfold asWritten
  cases hkind : column.kind <;> first | rfl | contradiction

theorem asWritten_binary (hkind : column.kind = .binary) (htype : column.typeName = "binary")
    (hlength : column.length ≠ none) : column.asWritten = column := by
  simp only [asWritten, hkind]
  exact if_pos ⟨htype, hlength⟩

theorem asWritten_blob (hkind : column.kind = .binary)
    (h : ¬(column.typeName = "binary" ∧ column.length ≠ none)) :
    column.asWritten = { column with typeName := "blob", length := none } := by
  simp only [asWritten, hkind]
  exact if_neg h

/-- Nothing but a length and the name of a type is lost. -/
theorem asWritten_eq (column : Column) :
    column.asWritten = { column with
      typeName := column.asWritten.typeName
      length := column.asWritten.length } := by
  unfold asWritten
  split
  next => rfl
  next => split <;> rfl
  next => rfl

theorem typed_asWritten (column : Column) : column.asWritten.typed = column.typed.asWritten := by
  have hkind : column.typed.kind = column.kind := rfl
  have htype : column.typed.typeName = column.typeName := rfl
  have hlength : column.typed.length = column.length := rfl
  unfold asWritten
  rw [hkind, htype, hlength]
  split
  next => rfl
  next => split <;> rfl
  next => rfl

theorem writtenType_asWritten (column : Column) :
    column.asWritten.writtenType = column.writtenType := by
  cases hkind : column.kind
  case string => simp [asWritten, writtenType, hkind]
  case binary =>
    by_cases hsized : column.typeName = "binary" ∧ column.length ≠ none
    · rw [asWritten_binary hkind hsized.1 hsized.2]
    · rw [asWritten_blob hkind hsized]
      unfold writtenType
      dsimp only
      rw [hkind]
      dsimp only
      cases hlength : column.length with
      | none => rfl
      | some length =>
          have htype : column.typeName ≠ "binary" := fun htype => hsized ⟨htype, by simp [hlength]⟩
          dsimp only
          rw [if_neg htype]
  all_goals rw [asWritten_of_kind (by simp [hkind]) (by simp [hkind])]

theorem columnDefinition_asWritten (column : Column) :
    Dialect.mysql.columnDefinition column.asWritten = Dialect.mysql.columnDefinition column := by
  have hbase : Dialect.mysqlBaseType column.asWritten = Dialect.mysqlBaseType column := by
    rw [mysqlBaseType_eq, mysqlBaseType_eq, writtenType_asWritten]
  change columnSql _ (Dialect.mysqlColumnType _) _ = columnSql _ (Dialect.mysqlColumnType _) _
  unfold Dialect.mysqlColumnType
  rw [hbase, asWritten_eq]
  rfl

end Column

/-! ## Reading it again -/

namespace Build

variable {name : String} {dataType : DataType}

theorem kind_withTypeArgs (raw : String) (args : TypeArgs) (column : Column) :
    (withTypeArgs raw args column).kind = column.kind := by
  unfold withTypeArgs withWidth
  dsimp only
  repeat' split
  all_goals rfl

theorem kind_typedColumn {mapped : MappedType}
    (h : TypeMapping.mysql.resolve? (lowerCase dataType.name) = some mapped) :
    (typedColumn .mysql name dataType).kind = mapped.kind := by
  rw [typedColumn_of_resolve h, kind_withTypeArgs]

theorem spelled_plainBlob (name : String) :
    ({ name, kind := .binary, typeName := "blob" } : Column).Spelled :=
  spelled_of_mem "BLOB" ⟨.binary, "blob"⟩ (by decide) rfl TypeArgs.fits_none rfl

/-- Only types that vary in width have no length. -/
theorem exists_withTypeArgs_sized {raw : String} {args : TypeArgs} (hfits : args.Fits)
    (kind : ColumnKind) (typeName : String)
    (hmem : (⟨kind, typeName⟩ : MappedType) ∈ [⟨.string, "string"⟩, ⟨.binary, "binary"⟩]) :
    ∃ fixed length, withTypeArgs raw args { name, kind, typeName }
        = { name, kind, typeName, fixed, length } ∧
      (∀ n ∈ length, n ≤ 4294967295) ∧ (length = none → fixed = false) := by
  have hargs : withTypeArgs raw args { name, kind, typeName }
      = { name, kind, typeName,
          fixed := !isVarying raw
          length := if !isVarying raw then (lengthArg? args).or (some 1)
            else lengthArg? args } := by
    simp only [List.mem_cons, MappedType.mk.injEq, List.not_mem_nil, or_false] at hmem
    rcases hmem with ⟨rfl, rfl⟩ | ⟨rfl, rfl⟩ <;> rfl
  refine ⟨_, _, hargs, ?_, ?_⟩
  · intro n hn
    cases hlength : lengthArg? args with
    | none =>
        rw [hlength] at hn
        cases hvarying : isVarying raw <;> simp [hvarying] at hn
        omega
    | some m =>
        have hm := le_of_lengthArg? hfits hlength
        rw [hlength] at hn
        cases hvarying : isVarying raw <;> simp [hvarying] at hn <;> omega
  · cases hvarying : isVarying raw <;> simp

/-- A type that was read is written as one that can be read again. -/
theorem spelled_asWritten (hname : IsTypeName dataType.name) (hfits : dataType.args.Fits) :
    (typedColumn .mysql name dataType).asWritten.Spelled := by
  cases hresolve : TypeMapping.mysql.resolve? (lowerCase dataType.name) with
  | none =>
      have hkind : (typedColumn .mysql name dataType).kind = .other := by
        rw [typedColumn_of_unknown hresolve, kind_withTypeArgs]
      rw [Column.asWritten_of_kind (by simp [hkind]) (by simp [hkind])]
      exact spelled_unknown hname hfits hresolve
  | some mapped =>
      have hmem := TypeMapping.mem_mysqlMapped hresolve
      have hkind : (typedColumn .mysql name dataType).kind = mapped.kind :=
        kind_typedColumn hresolve
      by_cases hsized : mapped.kind ∈ [.string, .binary]
      · have hmapped : ∀ mapped ∈ TypeMapping.mysqlMapped, mapped.kind ∈ [.string, .binary] →
            mapped = ⟨.string, "string"⟩ ∨ mapped = ⟨.binary, "binary"⟩
              ∨ mapped = ⟨.binary, "blob"⟩ := by decide
        rw [typedColumn_of_resolve hresolve]
        rcases hmapped mapped hmem hsized with rfl | rfl | rfl
        · obtain ⟨fixed, length, heq, hbound, -⟩ :=
            exists_withTypeArgs_sized hfits .string "string" (by decide)
          have hlength : length.getD Dialect.defaultStringLength ≤ 4294967295 := by
            cases length with
            | none => decide
            | some n => exact hbound n rfl
          have hspelled : Column.Spelled
              { name, kind := .string, typeName := "string", fixed,
                length := some (length.getD Dialect.defaultStringLength) } :=
            spelled_sized hlength (by decide)
          rw [heq]
          exact hspelled
        · obtain ⟨fixed, length, heq, hbound, hvarying⟩ :=
            exists_withTypeArgs_sized hfits .binary "binary" (by decide)
          rw [heq]
          cases length with
          | none =>
              rw [hvarying rfl]
              exact spelled_plainBlob name
          | some n =>
              have hspelled : Column.Spelled
                  { name, kind := .binary, typeName := "binary", fixed, length := some n } :=
                spelled_sized (hbound n rfl) (by decide)
              exact hspelled
        · exact spelled_plainBlob name
      · rw [← hkind] at hsized
        have hstring : (typedColumn .mysql name dataType).kind ≠ .string := fun h =>
          hsized (by simp [h])
        have hbinary : (typedColumn .mysql name dataType).kind ≠ .binary := fun h =>
          hsized (by simp [h])
        rw [Column.asWritten_of_kind hstring hbinary]
        exact spelled_typedColumn hname hfits
          ⟨fun h => absurd h hsized, fun h => absurd h hbinary⟩

end Build

theorem Column.Declared.restorable_asWritten {column : Column} (h : column.Declared) :
    column.asWritten.Restorable := by
  obtain ⟨name, dataType, hname, hfits, htyped⟩ := h.type
  have hspelled : (Build.typedColumn .mysql name dataType).asWritten.Spelled :=
    Build.spelled_asWritten hname hfits
  rw [← htyped, ← Column.typed_asWritten] at hspelled
  refine ⟨.of_typed hspelled, ?_, ?_⟩
  · rw [Column.asWritten_eq]
    exact h.default
  · rw [Column.asWritten_eq]
    exact h.comment

def Table.single (column : Column) : Table :=
  { name := "t", columns := [column] }

theorem Column.Restorable.exists_statement {column : Column} (h : column.Restorable)
    {script : String} (hscript : script.toList = creationText [.single column]) :
    ∃ statement, Script.statements script none = [.ok (.createTable statement)] ∧
      statement.columns.map (Build.column .mysql) = [column] := by
  have hwritable : (Table.single column).Writable :=
    ⟨by simp [Table.single], by simpa [Table.single] using h.typeName,
      by simpa [Table.single] using h.typeArgs, by simpa [Table.single] using h.default,
      by simp [Table.single, Table.allIndexes], by simp [Table.single]⟩
  have hread := statements_creation (List.forall_mem_singleton.mpr hwritable) script hscript none
  obtain ⟨result, results, ⟨statement, rfl, hwritten⟩, hnil, heq⟩ :=
    List.forall₂_cons_left_iff.mp hread
  obtain rfl := List.forall₂_nil_left_iff.mp hnil
  obtain ⟨columns, hcolumns, hdefinitions⟩ := hwritten.definitions
  have hsame : statement.columns = columns := by
    simp [CreateTable.columns, hdefinitions, Table.single, Table.allIndexes,
      List.filterMap_map]
  refine ⟨statement, heq, ?_⟩
  rw [hsame]
  exact Build.map_column_of_writtenAs hcolumns (List.forall_mem_singleton.mpr h)

/-- Columns that can be built again are told apart by their definitions. -/
theorem Column.Restorable.eq_of_columnDefinition_eq {a b : Column} (ha : a.Restorable)
    (hb : b.Restorable)
    (h : Dialect.mysql.columnDefinition a = Dialect.mysql.columnDefinition b) : a = b := by
  have hcreate : Dialect.mysql.createTable (.single a) = Dialect.mysql.createTable (.single b) := by
    unfold Dialect.createTable Table.single
    rw [List.map_cons, List.map_cons, h]
    rfl
  have htext : creationText [.single a] = creationText [.single b] := by
    unfold creationText
    rw [List.flatMap_cons, List.flatMap_cons, hcreate]
  have hscript : (String.ofList (creationText [.single a])).toList = creationText [.single a] :=
    String.toList_ofList
  obtain ⟨first, hfirst, hfirstColumns⟩ := ha.exists_statement hscript
  obtain ⟨second, hsecond, hsecondColumns⟩ := hb.exists_statement (hscript.trans htext)
  rw [hfirst] at hsecond
  obtain rfl : first = second := by simpa using hsecond
  rw [hfirstColumns] at hsecondColumns
  simpa using hsecondColumns

/-! ## Columns of definitions that were read -/

/-- The column is built from a definition of a statement that was read. -/
def Column.Accepted (column : Column) : Prop :=
  ∃ source database statement, .ok (.createTable statement) ∈ Script.statements source database ∧
    ∃ written ∈ statement.columns, Build.column .mysql written = column

theorem Column.Accepted.of_toList {column : Column} (source : String) {chars : List Char}
    (hchars : source.toList = chars) (statement : CreateTable) {written : ColumnDef}
    (hread : .ok (.createTable statement) ∈ (Reader.start chars).statements chars none 0)
    (hmem : written ∈ statement.columns) (hcolumn : Build.column .mysqlSorted written = column) :
    column.Accepted :=
  ⟨source, none, statement, Script.statements_of_toList hchars none ▸ hread, written, hmem,
    TypeMapping.mysql_eq ▸ hcolumn⟩

theorem Column.Accepted.declared {column : Column} (h : column.Accepted) : column.Declared := by
  obtain ⟨source, database, statement, hread, written, hmem, rfl⟩ := h
  exact Build.declared_column (Build.sound_of_mem_columns (Script.sound_statements hread) _ hmem)

theorem Column.Declared.asWritten_eq_self {column : Column} (h : column.Declared)
    (hwidth : column.WidthKnown) : column.asWritten = column :=
  h.restorable_asWritten.eq_of_columnDefinition_eq (h.restorable hwidth)
    (columnDefinition_asWritten column)

theorem Column.Declared.same_definition_iff {a b : Column} (ha : a.Declared)
    (hb : b.Declared) :
    Dialect.mysql.columnDefinition a = Dialect.mysql.columnDefinition b ↔
      a.asWritten = b.asWritten := by
  rw [← columnDefinition_asWritten a, ← columnDefinition_asWritten b]
  constructor
  · exact ha.restorable_asWritten.eq_of_columnDefinition_eq hb.restorable_asWritten
  · exact congrArg _

/-- Columns that are read alike differ in nothing but what definitions leave out. -/
theorem Column.differs_of_asWritten_eq {a b : Column} (h : a.asWritten = b.asWritten)
    {property : ColumnProperty} (hdiffers : property.differs a b = true) :
    property = .type ∨ property = .length := by
  rw [a.asWritten_eq, b.asWritten_eq, Column.mk.injEq] at h
  obtain ⟨-, hkind, -, -, hprecision, hscale, hnullable, hunsigned, hautoIncrement, hdefault,
    hcomment, hfixed, henumValues⟩ := h
  cases property with
  | type => exact .inl rfl
  | length => exact .inr rfl
  | _ => simp_all [ColumnProperty.differs]

theorem Column.differences_self (column : Column) : column.differences column = [] := by
  refine List.filter_eq_nil_iff.mpr fun property _ => ?_
  simp [property.differs_self]

/-- The definitions of two columns that were read are the same exactly if the columns are
read alike.  Then the columns differ in their types and lengths at most, and not at all if
the width of both is known. -/
theorem Dialect.columnDefinition_eq_iff {a b : Column} (ha : a.Accepted) (hb : b.Accepted) :
    (mysql.columnDefinition a = mysql.columnDefinition b ↔ a.asWritten = b.asWritten) ∧
      (mysql.columnDefinition a = mysql.columnDefinition b →
        ∀ property ∈ a.differences b, property = .type ∨ property = .length) ∧
      (a.WidthKnown → b.WidthKnown → a.differences b ≠ [] →
        mysql.columnDefinition a ≠ mysql.columnDefinition b) := by
  have hiff := ha.declared.same_definition_iff hb.declared
  refine ⟨hiff, fun hsame property hproperty => ?_, fun hknown hknown' hdiffer hsame => ?_⟩
  · exact Column.differs_of_asWritten_eq (hiff.mp hsame) (List.mem_filter.mp hproperty).2
  · have hread := hiff.mp hsame
    rw [ha.declared.asWritten_eq_self hknown, hb.declared.asWritten_eq_self hknown'] at hread
    rw [hread] at hdiffer
    exact hdiffer (Column.differences_self b)

def Sql.CreateTable.ofType (dataType : DataType) (stop : Nat) : CreateTable :=
  ⟨"t", false, false, [.column ⟨"c", dataType, [], ⟨16, stop⟩⟩], ⟨0, stop + 1⟩⟩

theorem Dialect.columnDefinition_eq_iff_text :
    ({ name := "c", kind := .text, typeName := "text" } : Column).Accepted ∧
      ({ name := "c", kind := .string, typeName := "string", length := some 9 }
          : Column).Accepted ∧
        mysql.columnDefinition { name := "c", kind := .text, typeName := "text" }
          ≠ mysql.columnDefinition
              { name := "c", kind := .string, typeName := "string", length := some 9 } := by
  have hold : ({ name := "c", kind := .text, typeName := "text" } : Column).Accepted :=
    .of_toList "CREATE TABLE t (c TEXT)" String.toList_ofList (.ofType ⟨"TEXT", .none⟩ 22)
      (by decide +kernel) (List.mem_singleton_self _) (by decide +kernel)
  have hnew : ({ name := "c", kind := .string, typeName := "string", length := some 9 }
      : Column).Accepted :=
    .of_toList "CREATE TABLE t (c VARCHAR(9))" String.toList_ofList
      (.ofType ⟨"VARCHAR", .length 9⟩ 28)
      (by decide +kernel) (List.mem_singleton_self _) (by decide +kernel)
  obtain ⟨-, -, hdistinct⟩ := columnDefinition_eq_iff hold hnew
  exact ⟨hold, hnew, hdistinct (by decide) (by decide) (by decide)⟩

/-- A binary column that the dialect calls `BLOB`, of any length. -/
def Column.ofBlob (length : Option Nat) : Column :=
  { name := "c", kind := .binary, typeName := "blob", length }

/-- The lengths of such columns differ, and are part of no definition. -/
theorem Dialect.columnDefinition_hides_length :
    (Column.ofBlob none).Accepted ∧ (Column.ofBlob (some 10)).Accepted ∧
      (Column.ofBlob none).differences (.ofBlob (some 10)) = [.length] ∧
        mysql.columnDefinition (.ofBlob none) = "\x60c\x60 BLOB" ∧
          mysql.columnDefinition (.ofBlob (some 10)) = "\x60c\x60 BLOB" := by
  have hold : (Column.ofBlob none).Accepted :=
    .of_toList "CREATE TABLE t (c BLOB)" String.toList_ofList (.ofType ⟨"BLOB", .none⟩ 22)
      (by decide +kernel) (List.mem_singleton_self _) (by decide +kernel)
  have hnew : (Column.ofBlob (some 10)).Accepted :=
    .of_toList "CREATE TABLE t (c BLOB(10))" String.toList_ofList (.ofType ⟨"BLOB", .length 10⟩ 26)
      (by decide +kernel) (List.mem_singleton_self _) (by decide +kernel)
  exact ⟨hold, hnew, by decide, by decide, by decide⟩

end SchemaDelta
