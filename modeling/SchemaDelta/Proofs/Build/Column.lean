import SchemaDelta.Proofs.Build.Type

/-!
# Columns are built again

The definition that a column is written as is built into the same column.
-/

namespace SchemaDelta

open Sql

/-- The column is one that building leads to, as far as its writing is concerned. -/
structure Column.Restorable (column : Column) : Prop extends column.Spelled where
  default : ∀ value ∈ column.default, value.Readable
  comment : column.comment ≠ some ""

theorem commentOf_of_ne {comment : String} (h : comment ≠ "") :
    Column.commentOf comment = some comment := by
  simp [Column.commentOf, h]

/-- The options that a column is written with make it what it is. -/
theorem foldl_optionEntries {column : Column} {literal : Literal}
    (hdefault : ∀ value ∈ column.default, Build.defaultOf? literal = some value)
    (hcomment : column.comment ≠ some "") :
    ((column.optionEntries literal).map (·.2)).foldl Build.withOption column.typed = column := by
  obtain ⟨name, kind, typeName, length, precision, scale, nullable, unsigned, autoIncrement,
    default, comment, fixed, enumValues⟩ := column
  have hvalue : ∀ value, default = some value → Build.defaultOf? literal = some value := hdefault
  have htext : ∀ text, comment = some text → Column.commentOf text = some text := by
    rintro text rfl
    exact commentOf_of_ne fun h => hcomment (congrArg some h)
  cases unsigned <;> cases nullable <;> cases autoIncrement <;> cases default <;> cases comment <;>
    simp [Column.optionEntries, Column.typed, Build.withOption, hvalue, htext]

theorem Column.WrittenAs.rebuilt {column : Column} {written : ColumnDef}
    (h : column.WrittenAs written) (hrestorable : column.Restorable) :
    Build.column .mysql written = column := by
  obtain ⟨literal, hliteral, hoptions⟩ := h.options
  rw [Build.column_eq_foldl, h.name, h.dataType, hrestorable.typed, hoptions]
  exact foldl_optionEntries hliteral hrestorable.comment

end SchemaDelta
