import SchemaDelta.Proofs.Catalog.Growth

/-!
# Defaults without quotes

Some servers report the default of a string without its quotes.  The text is taken for a
number when it reads as one, and then the spelling of the number is what is compared.  So the
default is the one of a dump exactly when the text is no number or is spelled like one.
-/

namespace SchemaDelta

/-- The text is not read as a number, or the number is printed like the text. -/
def Text.Canonical (text : String) : Prop :=
  ∀ value ∈ Text.int64? text.toList, toString value = text

/-! ## Literals of texts -/

namespace Catalog

/-- Nothing tells the text from the content of a string. -/
structure Bare (text extra : String) : Prop where
  quote : text.toList.head? ≠ some '\x27'
  null : sameName text "NULL" = false
  timestamp : meansTimestamp text = false
  generated : hasWord "DEFAULT_GENERATED" extra = false

variable {text extra : String}

theorem Bare.defaultLiteral_eq (h : Bare text extra) :
    defaultLiteral text extra
      = if (Text.int64? text.toList).isSome then .number text else .string text := by
  simp only [defaultLiteral, stringValue?_eq_none h.quote, h.null, h.timestamp, h.generated,
    Bool.false_eq_true, if_false]

theorem Bare.text_defaultOf?_iff (h : Bare text extra) :
    (Build.defaultOf? (defaultLiteral text extra)).map (·.text) = some text
      ↔ Text.Canonical text := by
  rw [h.defaultLiteral_eq, Text.Canonical]
  cases hvalue : Text.int64? text.toList with
  | none => simp [Build.defaultOf?, DefaultValue.text]
  | some value => simp [Build.defaultOf?, DefaultValue.text, hvalue]

end Catalog

/-! ## Defaults of definitions -/

namespace Build

variable {mapping : TypeMapping}

/-- The options give the literal for a default, and no other one. -/
structure GivesDefault (options : List Sql.ColumnOption) (literal : Sql.Literal) : Prop where
  given : .default literal ∈ options
  only : ∀ other, .default other ∈ options → other = literal

theorem default_foldl {options : List Sql.ColumnOption} {literal : Sql.Literal}
    (honly : ∀ other, .default other ∈ options → other = literal) {column : Column}
    (h : .default literal ∈ options ∨ column.default = defaultOf? literal) :
    (options.foldl withOption column).default = defaultOf? literal := by
  -- The literal is still to come, or it is in place, and then no option puts another one there.
  induction options generalizing column with
  | nil => exact h.resolve_left List.not_mem_nil
  | cons option options ih =>
      refine ih (fun other hother => honly other (List.mem_cons_of_mem _ hother)) ?_
      by_cases hgiven : ∃ other, option = .default other
      · obtain ⟨other, rfl⟩ := hgiven
        exact .inr (congrArg defaultOf? (honly other List.mem_cons_self))
      · have hkeeps : (withOption column option).default = column.default := by
          cases option with
          | default other => exact absurd ⟨other, rfl⟩ hgiven
          | _ => rfl
        rw [hkeeps]
        refine h.imp_left fun hmem => ?_
        exact (List.mem_cons.mp hmem).resolve_left fun heq => hgiven ⟨_, heq.symm⟩

theorem GivesDefault.default_foldl {options : List Sql.ColumnOption} {literal : Sql.Literal}
    (h : GivesDefault options literal) (column : Column) :
    (options.foldl withOption column).default = defaultOf? literal :=
  Build.default_foldl h.only (.inl h.given)

/-- What a row says comes behind what its type says. -/
theorem default_of_row {row : ColumnRow} {written : Sql.ColumnDef} {text : String}
    (hwritten : Catalog.columnDef row = .ok written) (hdefault : row.default = some text) :
    (column mapping written).default = defaultOf? (Catalog.defaultLiteral text row.extra) := by
  obtain ⟨dataType, options, -, rfl⟩ := Catalog.columnDef_eq_ok hwritten
  have hgives : GivesDefault (Catalog.rowOptions row) (Catalog.defaultLiteral text row.extra) := by
    unfold Catalog.rowOptions
    rw [hdefault]
    constructor
    · simp
    · intro other hother
      cases hnullable : row.nullable <;> simpa [hnullable] using hother
  rw [column_eq_foldl, List.foldl_append]
  exact hgives.default_foldl _

end Build

namespace Catalog

variable {catalog : Catalog} {mapping : TypeMapping} {database : String} {output : BuildOutput}

/-- The default that is reported without quotes keeps its text, and does not differ from the
default of a definition with this text in quotes, exactly if its spelling is canonical. -/
theorem assemble_bareDefault_iff (hassemble : catalog.assemble database mapping = .ok output)
    {row : ColumnRow} (hrow : row ∈ catalog.columns) (hlisted : row.table ∈ catalog.tables)
    {text : String} (hdefault : row.default = some text) (hbare : Bare text row.extra) :
    ∃ table column, output.schema.table? row.table = some table ∧
      table.column? row.name = some column ∧
        (column.default.map (·.text) = some text ↔ Text.Canonical text) ∧
          ∀ written : Sql.ColumnDef, Build.GivesDefault written.options (.string text) →
            (ColumnProperty.default.differs column (Build.column mapping written) = false
              ↔ Text.Canonical text) := by
  obtain ⟨read, table, nullable, hread, htable, -, hcolumn⟩ :=
    exists_column_of_row hassemble hrow hlisted
  have hvalue : ((Build.column mapping read).default.map (·.text) = some text)
      ↔ Text.Canonical text := by
    rw [Build.default_of_row hread hdefault]
    exact hbare.text_defaultOf?_iff
  refine ⟨table, _, htable, hcolumn, hvalue, fun written hgives => ?_⟩
  have hquoted : (Build.column mapping written).default = some (.string text) := by
    rw [Build.column_eq_foldl]
    exact hgives.default_foldl _
  rw [ColumnProperty.differs, hquoted, bne_eq_false_iff_eq]
  exact hvalue

end Catalog

def Column.ofText (default : DefaultValue) : Column :=
  { name := "c", kind := .string, typeName := "string", length := some 5, default := some default }

def Schema.ofText (name : Option String) (default : DefaultValue) : Schema :=
  { Schema.ofTable { name := "t", columns := [.ofText default] } with name }

def Catalog.ofText (default : String) : Catalog where
  tables := ["t"]
  columns := [⟨"t", "c", "varchar(5)", true, some default, "", ""⟩]
  indexes := []
  foreignKeys := []

theorem Catalog.assemble_bareDefault_iff_twelve :
    (ofText "12").assemble "shop" .mysql = .ok ⟨.ofText (some "shop") (.integer 12), []⟩ ∧
      Bare "12" "" ∧
        ∃ table column, (Schema.ofText (some "shop") (.integer 12)).table? "t" = some table ∧
          table.column? "c" = some column ∧
            (column.default.map (·.text) = some "12" ↔ Text.Canonical "12") ∧
              ∀ written : Sql.ColumnDef, Build.GivesDefault written.options (.string "12") →
                (ColumnProperty.default.differs column (Build.column .mysql written) = false
                  ↔ Text.Canonical "12") := by
  have hassemble : (ofText "12").assemble "shop" .mysql
      = .ok ⟨.ofText (some "shop") (.integer 12), []⟩ := by
    rw [TypeMapping.mysql_eq]
    decide +kernel
  have hbare : Bare "12" "" := ⟨by decide, by decide, by decide, by decide⟩
  exact ⟨hassemble, hbare, assemble_bareDefault_iff hassemble (List.mem_singleton_self _)
    (List.mem_singleton_self _) rfl hbare⟩

/-- Zeros in front of a number are lost, so that a database differs from its dump. -/
theorem Catalog.assemble_respells_bareDefault :
    Bare "007" "" ∧
      (ofText "007").assemble "shop" .mysql = .ok ⟨.ofText (some "shop") (.integer 7), []⟩ ∧
        ({} : BuildSettings).build "CREATE TABLE t (c VARCHAR(5) DEFAULT '007')"
            = .ok ⟨.ofText none (.string "007"), []⟩ ∧
          (DefaultValue.integer 7).text ≠ "007" ∧
            ColumnProperty.default.differs (.ofText (.integer 7)) (.ofText (.string "007"))
                = true ∧
              ((Schema.ofText (some "shop") (.integer 7)).diff
                (.ofText none (.string "007"))).isEmpty = false := by
  refine ⟨⟨by decide, by decide, by decide, by decide⟩, ?_, ?_, by decide, by decide, ?_⟩
  · rw [TypeMapping.mysql_eq]
    decide +kernel
  · rw [BuildSettings.build_of_toList _ String.toList_ofList, TypeMapping.mysql_eq]
    decide +kernel
  · decide +kernel

end SchemaDelta
