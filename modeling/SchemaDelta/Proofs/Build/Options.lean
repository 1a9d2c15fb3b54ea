import SchemaDelta.Diff.ColumnProperty
import SchemaDelta.Proofs.Build.Type
import SchemaDelta.Proofs.Script.OptionLines

/-!
# The order of options

An option of a column sets one property of it at most, and options that set different ones
may change their places.
-/

namespace SchemaDelta

open Sql

namespace Build

variable {option a b : ColumnOption} {options others : List ColumnOption} {column : Column}
  {property : ColumnProperty}

/-- The option changes the property of some column. -/
def Sets (option : ColumnOption) (property : ColumnProperty) : Prop :=
  ∃ column : Column, property.differs column (withOption column option) = true

def propertyOf? : ColumnOption → Option ColumnProperty
  | .null | .notNull => some .nullable
  | .unsigned | .zerofill => some .unsigned
  | .default _ => some .default
  | .autoIncrement => some .autoIncrement
  | .comment _ => some .comment
  | .collate _ | .characterSet _ | .onUpdate _ | .primaryKey | .unique | .generated _ => none

/-- An option leaves all properties but its own one as they are. -/
theorem propertyOf?_of_sets (h : Sets option property) : propertyOf? option = some property := by
  obtain ⟨column, hdiffers⟩ := h
  cases option <;> cases property <;>
    first | rfl | simp [ColumnProperty.differs, withOption] at hdiffers

theorem sets_of_propertyOf? (h : propertyOf? option = some property) : Sets option property := by
  -- A column that has something else in its place.
  let column : Column := { name := "", kind := .other, typeName := "" }
  cases option <;> cases h
  case null => exact ⟨{ column with nullable := false }, rfl⟩
  case notNull | unsigned | zerofill | autoIncrement => exact ⟨column, rfl⟩
  case default literal =>
    cases hvalue : defaultOf? literal with
    | none =>
        exact ⟨{ column with default := some (.integer 0) }, by
          simp [ColumnProperty.differs, withOption, hvalue]⟩
    | some value =>
        exact ⟨column, by simp [column, ColumnProperty.differs, withOption, hvalue]⟩
  case comment text =>
    cases hcomment : Column.commentOf text with
    | none =>
        exact ⟨{ column with comment := some "" }, by
          simp [ColumnProperty.differs, withOption, hcomment]⟩
    | some comment =>
        exact ⟨column, by simp [column, ColumnProperty.differs, withOption, hcomment]⟩

theorem sets_iff : Sets option property ↔ propertyOf? option = some property :=
  ⟨propertyOf?_of_sets, sets_of_propertyOf?⟩

/-- No option of the one list sets a property that an option of the other one sets. -/
def SetApart (options others : List ColumnOption) : Prop :=
  ∀ a ∈ options, ∀ b ∈ others, ∀ property, ¬(Sets a property ∧ Sets b property)

theorem withOption_comm (h : ∀ property, ¬(Sets a property ∧ Sets b property)) (column : Column) :
    withOption (withOption column a) b = withOption (withOption column b) a := by
  have hproperty : ∀ property, propertyOf? a = some property → propertyOf? b ≠ some property :=
    fun property ha hb => h property ⟨sets_iff.mpr ha, sets_iff.mpr hb⟩
  cases a <;> cases b <;> first | rfl | exact absurd rfl (hproperty _ rfl)

theorem foldl_withOption_comm (h : SetApart [a] others) (column : Column) :
    others.foldl withOption (withOption column a)
      = withOption (others.foldl withOption column) a := by
  induction others generalizing column with
  | nil => rfl
  | cons b others ih =>
      have hb : withOption (withOption column a) b = withOption (withOption column b) a :=
        withOption_comm (h a List.mem_cons_self b List.mem_cons_self) column
      rw [List.foldl_cons, List.foldl_cons, hb]
      exact ih (fun option hoption other hother =>
        h option hoption other (List.mem_cons_of_mem _ hother)) _

theorem foldl_append_comm (h : SetApart options others) (column : Column) :
    (options ++ others).foldl withOption column = (others ++ options).foldl withOption column := by
  induction options generalizing column with
  | nil => rw [List.nil_append, List.append_nil]
  | cons a options ih =>
      have ha : SetApart [a] others := fun option hoption =>
        h option (List.mem_singleton.mp hoption ▸ List.mem_cons_self)
      have hrest : SetApart options others := fun option hoption =>
        h option (List.mem_cons_of_mem _ hoption)
      calc (a :: options ++ others).foldl withOption column
          = (options ++ others).foldl withOption (withOption column a) := rfl
        _ = (others ++ options).foldl withOption (withOption column a) := ih hrest _
        _ = options.foldl withOption (others.foldl withOption (withOption column a)) :=
            List.foldl_append
        _ = options.foldl withOption (withOption (others.foldl withOption column) a) := by
            rw [foldl_withOption_comm ha]
        _ = (others ++ a :: options).foldl withOption column := by
            rw [List.foldl_append, List.foldl_cons]

end Build

variable {bare first second : String} {dataType : DataType} {options others : List ColumnOption}

/-- Options on two lines behind a type are read one behind the other, and those that set
different properties make the same column in either order. -/
theorem options_compose (hbare : columnType bare = .ok (dataType, []))
    (hfirst : columnType (bare ++ "\n" ++ first) = .ok (dataType, options))
    (hsecond : columnType (bare ++ "\n" ++ second) = .ok (dataType, others)) :
    (¬(EndsBareUnique first options ∧ BeginsWithKey second) →
        columnType (bare ++ "\n" ++ first ++ "\n" ++ second) = .ok (dataType, options ++ others))
      ∧ (Build.SetApart options others →
        ∀ (mapping : TypeMapping) (name : String) (span : Span),
          Build.column mapping ⟨name, dataType, options ++ others, span⟩
            = Build.column mapping ⟨name, dataType, others ++ options, span⟩) := by
  refine ⟨columnType_append_line hbare hfirst hsecond, fun hapart mapping name span => ?_⟩
  rw [Build.column_eq_foldl, Build.column_eq_foldl]
  exact Build.foldl_append_comm hapart _

theorem options_compose_uniqueFirst :
    columnType "int" = .ok (⟨"int", .none⟩, [])
      ∧ columnType ("int" ++ "\n" ++ "UNIQUE NOT NULL") = .ok (⟨"int", .none⟩, [.unique, .notNull])
      ∧ columnType ("int" ++ "\n" ++ "KEY DEFAULT 5")
        = .ok (⟨"int", .none⟩, [.primaryKey, .default (.number "5")])
      ∧ columnType ("int" ++ "\n" ++ "UNIQUE NOT NULL" ++ "\n" ++ "KEY DEFAULT 5")
        = .ok (⟨"int", .none⟩, [.unique, .notNull, .primaryKey, .default (.number "5")])
      ∧ Build.column .mysql ⟨"c", ⟨"int", .none⟩,
          [.unique, .notNull, .primaryKey, .default (.number "5")], ⟨0, 0⟩⟩
        = Build.column .mysql ⟨"c", ⟨"int", .none⟩,
          [.primaryKey, .default (.number "5"), .unique, .notNull], ⟨0, 0⟩⟩ := by
  have hbare : columnType "int" = .ok (⟨"int", .none⟩, []) := by decide +kernel
  have hfirst : columnType ("int" ++ "\n" ++ "UNIQUE NOT NULL")
      = .ok (⟨"int", .none⟩, [.unique, .notNull]) := by
    decide +kernel
  have hsecond : columnType ("int" ++ "\n" ++ "KEY DEFAULT 5")
      = .ok (⟨"int", .none⟩, [.primaryKey, .default (.number "5")]) := by
    decide +kernel
  have hnot : ¬(EndsBareUnique "UNIQUE NOT NULL" [.unique, .notNull]
      ∧ BeginsWithKey "KEY DEFAULT 5") := fun h => absurd h.1.1 (by decide)
  have hapart : Build.SetApart [.unique, .notNull] [.primaryKey, .default (.number "5")] := by
    simp [Build.SetApart, Build.sets_iff, Build.propertyOf?]
  obtain ⟨hread, hbuilt⟩ := options_compose hbare hfirst hsecond
  exact ⟨hbare, hfirst, hsecond, hread hnot, hbuilt hapart .mysql "c" ⟨0, 0⟩⟩

-- A `KEY` belongs to the `UNIQUE` in front of it.
example : columnType ("int" ++ "\n" ++ "KEY") = .ok (⟨"int", .none⟩, [.primaryKey])
    ∧ columnType ("int" ++ "\n" ++ "UNIQUE" ++ "\n" ++ "KEY")
      = .ok (⟨"int", .none⟩, [.unique]) := by
  decide +kernel

end SchemaDelta
