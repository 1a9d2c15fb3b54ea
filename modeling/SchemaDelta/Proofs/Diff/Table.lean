import SchemaDelta.Diff.Schema
import SchemaDelta.Proofs.Diff.Delta
import SchemaDelta.Proofs.Schema.Basic

/-!
# Differences between tables and schemas

Two tables match when they have the same name, columns, indexes and foreign keys
as far as differences tell, which is an equivalence.  A difference is empty
exactly between what matches, and otherwise accounts for everything that does
not.
-/

namespace SchemaDelta

open Named

/-! ## Things that differences do not tell apart -/

def Column.Same (a b : Column) : Prop :=
  (a.differences b).isEmpty = true

namespace Column.Same

variable {a b c : Column}

theorem iff_forall : Same a b ↔ ∀ property : ColumnProperty, property.differs a b = false := by
  simp only [Same, differences, List.isEmpty_iff, List.filter_eq_nil_iff, Bool.not_eq_true]
  exact ⟨fun h property => h property property.mem_all, fun h property _ => h property⟩

theorem refl (a : Column) : Same a a := by
  rw [iff_forall]
  exact fun property => property.differs_self a

theorem symm (h : Same a b) : Same b a := by
  rw [iff_forall] at h ⊢
  intro property
  rw [property.differs_comm]
  exact h property

theorem trans (hab : Same a b) (hbc : Same b c) : Same a c := by
  rw [iff_forall] at hab hbc ⊢
  exact fun property => property.differs_trans (hab property) (hbc property)

theorem nullable (h : Same a b) : a.nullable = b.nullable := by
  rw [iff_forall] at h
  simpa [ColumnProperty.differs] using h .nullable

end Column.Same

theorem sameNames_iff {as bs : List String} :
    sameNames as bs = true ↔ as.map lowerCase = bs.map lowerCase := by
  simp [sameNames]

def Index.Same (a b : Index) : Prop :=
  a.sameDefinition b = true

namespace Index.Same

variable {a b c : Index}

theorem iff_kind_columns :
    Same a b ↔ a.kind = b.kind ∧ a.columns.map lowerCase = b.columns.map lowerCase := by
  simp [Same, sameDefinition, sameNames_iff]

theorem refl (a : Index) : Same a a :=
  iff_kind_columns.mpr ⟨rfl, rfl⟩

theorem symm (h : Same a b) : Same b a :=
  iff_kind_columns.mpr ((iff_kind_columns.mp h).imp Eq.symm Eq.symm)

theorem trans (hab : Same a b) (hbc : Same b c) : Same a c := by
  rw [iff_kind_columns] at hab hbc ⊢
  exact ⟨hab.1.trans hbc.1, hab.2.trans hbc.2⟩

end Index.Same

def ForeignKey.Same (a b : ForeignKey) : Prop :=
  a.sameDefinition b = true

namespace ForeignKey.Same

variable {a b c : ForeignKey}

theorem iff_fields :
    Same a b ↔ a.columns.map lowerCase = b.columns.map lowerCase ∧
      lowerCase a.referencedTable = lowerCase b.referencedTable ∧
      a.referencedColumns.map lowerCase = b.referencedColumns.map lowerCase ∧
      a.onUpdate = b.onUpdate ∧ a.onDelete = b.onDelete := by
  simp [Same, sameDefinition, sameNames_iff, sameName_iff, and_assoc]

theorem refl (a : ForeignKey) : Same a a := by
  simp [iff_fields]

theorem symm (h : Same a b) : Same b a := by
  rw [iff_fields] at h ⊢
  obtain ⟨hcolumns, htable, hreferenced, hupdate, hdelete⟩ := h
  exact ⟨hcolumns.symm, htable.symm, hreferenced.symm, hupdate.symm, hdelete.symm⟩

theorem trans (hab : Same a b) (hbc : Same b c) : Same a c := by
  rw [iff_fields] at hab hbc ⊢
  obtain ⟨hcolumns, htable, hreferenced, hupdate, hdelete⟩ := hab
  obtain ⟨hcolumns', htable', hreferenced', hupdate', hdelete'⟩ := hbc
  exact ⟨hcolumns.trans hcolumns', htable.trans htable', hreferenced.trans hreferenced',
    hupdate.trans hupdate', hdelete.trans hdelete'⟩

end ForeignKey.Same

/-! ## Columns in their places -/

namespace PlacedColumn

theorem placeAll_map_column (others : List Column) (place : Option String)
    (columns : List Column) : (placeAll others place columns).map (·.column) = columns := by
  induction columns generalizing place with
  | nil => rfl
  | cons column columns ih => rw [placeAll, List.map_cons, ih]

end PlacedColumn

namespace Table

variable {table other old new : Table}

theorem placedColumns_map_column (table other : Table) :
    (table.placedColumns other).map (·.column) = table.columns :=
  PlacedColumn.placeAll_map_column _ _ _

theorem Coherent.placedColumns_distinct (h : table.Coherent) (other : Table) :
    Distinct (table.placedColumns other) := by
  rw [← distinct_map (f := PlacedColumn.column) fun _ => rfl, placedColumns_map_column]
  exact h.columns

theorem lookup_columns_eq (table other : Table) :
    lookup table.columns = fun k => (lookup (table.placedColumns other) k).map (·.column) := by
  funext k
  rw [← lookup_map (f := PlacedColumn.column) fun _ => rfl, placedColumns_map_column]

/-! ## Tables that match -/

/-- What the difference between two tables looks at. -/
structure Matches (table other : Table) : Prop where
  name : key table = key other
  columns : Agree Column.Same (lookup table.columns) (lookup other.columns)
  indexes : Agree Index.Same (lookup table.allIndexes) (lookup other.allIndexes)
  foreignKeys : Agree ForeignKey.Same (lookup table.foreignKeys) (lookup other.foreignKeys)

namespace Matches

variable {a b c : Table}

theorem refl (a : Table) : a.Matches a :=
  ⟨rfl, .refl .refl _, .refl .refl _, .refl .refl _⟩

theorem symm (h : a.Matches b) : b.Matches a :=
  ⟨h.name.symm, h.columns.symm .symm, h.indexes.symm .symm, h.foreignKeys.symm .symm⟩

theorem trans (hab : a.Matches b) (hbc : b.Matches c) : a.Matches c :=
  ⟨hab.name.trans hbc.name, hab.columns.trans .trans hbc.columns,
    hab.indexes.trans .trans hbc.indexes, hab.foreignKeys.trans .trans hbc.foreignKeys⟩

end Matches

/-! ## The difference between two tables -/

section Diff

variable (hold : old.Coherent) (hnew : new.Coherent)

include hold hnew

theorem columnDelta_isEmpty_iff :
    (columnDelta old new).isEmpty = true ↔
      Agree Column.Same (lookup old.columns) (lookup new.columns) := by
  have hmap : (columnDelta old new).isEmpty = (Delta.between PlacedColumn.unchanged
      PlacedColumn.mates (old.placedColumns new) (new.placedColumns old)).isEmpty := by
    simp [columnDelta, Delta.map, Delta.isEmpty]
  rw [hmap, Delta.between_isEmpty_iff _ _ (hold.placedColumns_distinct new)
    (hnew.placedColumns_distinct old), lookup_columns_eq old new, lookup_columns_eq new old]
  refine forall_congr' fun k => ?_
  beta_reduce
  cases lookup (old.placedColumns new) k <;> cases lookup (new.placedColumns old) k <;>
    simp [PlacedColumn.unchanged, Column.Same]

theorem diff_isEmpty_iff : (old.diff new).isEmpty = true ↔ old.Matches new := by
  have hname : (old.diff new).newName.isNone = true ↔ key old = key new := by
    by_cases h : sameName old.name new.name = true
    · simp only [diff, h, if_true, Option.isNone_none, true_iff]
      exact sameName_iff.mp h
    · simp only [diff, h, if_false, Option.isNone_some, Bool.false_eq_true, false_iff]
      exact fun hkey => h (sameName_iff.mpr hkey)
  simp only [TableDiff.isEmpty, Bool.and_eq_true, hname]
  rw [show (old.diff new).columns.isEmpty = true ↔ _ from columnDelta_isEmpty_iff hold hnew,
    show (old.diff new).indexes.isEmpty = true ↔ _ from
      Delta.between_isEmpty_iff _ _ hold.allIndexes_distinct hnew.allIndexes_distinct,
    show (old.diff new).foreignKeys.isEmpty = true ↔ _ from
      Delta.unsorted_isEmpty_iff _ _ hold.foreignKeys.distinct hnew.foreignKeys.distinct]
  exact ⟨fun ⟨⟨⟨hkey, hcolumns⟩, hindexes⟩, hkeys⟩ => ⟨hkey, hcolumns, hindexes, hkeys⟩,
    fun h => ⟨⟨⟨h.name, h.columns⟩, h.indexes⟩, h.foreignKeys⟩⟩

theorem indexDelta_account :
    Account Index.Same (lookup old.allIndexes) (lookup new.allIndexes)
      (indexDelta old new).removed
      ((indexDelta old new).changed ++ (indexDelta old new).renamed)
      (indexDelta old new).added :=
  Delta.between_account _ _ hold.allIndexes_distinct hnew.allIndexes_distinct

theorem foreignKeyDelta_account :
    Account ForeignKey.Same (lookup old.foreignKeys) (lookup new.foreignKeys)
      (foreignKeyDelta old new).removed
      ((foreignKeyDelta old new).changed ++ (foreignKeyDelta old new).renamed)
      (foreignKeyDelta old new).added :=
  Delta.unsorted_account _ _ hold.foreignKeys.distinct hnew.foreignKeys.distinct

theorem columnDelta_account :
    Account Column.Same (lookup old.columns) (lookup new.columns)
      (columnDelta old new).removed
      ((columnDelta old new).changed ++ (columnDelta old new).renamed)
      (columnDelta old new).added := by
  have haccount := Delta.between_account PlacedColumn.unchanged PlacedColumn.mates
    (hold.placedColumns_distinct new) (hnew.placedColumns_distinct old)
  rw [lookup_columns_eq old new, lookup_columns_eq new old]
  have hmap : Account Column.Same _ _ _ _ _ :=
    haccount.map (f := PlacedColumn.column) (fun _ => rfl) fun _ _ h => h
  rwa [List.map_append] at hmap

end Diff

end Table

end SchemaDelta
