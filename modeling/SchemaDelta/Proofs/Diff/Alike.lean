import SchemaDelta.Proofs.Diff.Schema
import SchemaDelta.Proofs.Named.Correspond

/-!
# Schemas that are alike

Two schemas are alike when they have tables of the same names, and tables of one
name have alike columns, indexes and foreign keys.  Names are taken ignoring ASCII
case, columns in any order, and defaults as texts.  The difference of two schemas
is empty exactly when they are alike.
-/

namespace SchemaDelta

open Named

/-! ## Columns, indexes and foreign keys -/

/-- Equality of everything but the name, with defaults as texts. -/
structure Column.Alike (a b : Column) : Prop where
  kind : a.kind = b.kind
  typeName : a.typeName = b.typeName
  length : a.length = b.length
  precision : a.precision = b.precision
  scale : a.scale = b.scale
  nullable : a.nullable = b.nullable
  unsigned : a.unsigned = b.unsigned
  autoIncrement : a.autoIncrement = b.autoIncrement
  default : a.default.map (·.text) = b.default.map (·.text)
  comment : a.comment = b.comment
  fixed : a.fixed = b.fixed
  enumValues : a.enumValues = b.enumValues

structure Index.Alike (a b : Index) : Prop where
  kind : a.kind = b.kind
  columns : a.columns.map lowerCase = b.columns.map lowerCase

structure ForeignKey.Alike (a b : ForeignKey) : Prop where
  columns : a.columns.map lowerCase = b.columns.map lowerCase
  referencedTable : lowerCase a.referencedTable = lowerCase b.referencedTable
  referencedColumns : a.referencedColumns.map lowerCase = b.referencedColumns.map lowerCase
  onUpdate : a.onUpdate = b.onUpdate
  onDelete : a.onDelete = b.onDelete

theorem Column.same_iff_alike {a b : Column} : a.Same b ↔ a.Alike b := by
  rw [Same.iff_forall]
  constructor
  · intro h
    have htype := h .type
    simp only [ColumnProperty.differs, Bool.or_eq_false_iff, bne_eq_false_iff_eq] at htype
    exact {
      kind := htype.1
      typeName := htype.2
      length := by simpa [ColumnProperty.differs] using h .length
      precision := by simpa [ColumnProperty.differs] using h .precision
      scale := by simpa [ColumnProperty.differs] using h .scale
      nullable := by simpa [ColumnProperty.differs] using h .nullable
      unsigned := by simpa [ColumnProperty.differs] using h .unsigned
      autoIncrement := by simpa [ColumnProperty.differs] using h .autoIncrement
      default := by simpa [ColumnProperty.differs] using h .default
      comment := by simpa [ColumnProperty.differs] using h .comment
      fixed := by simpa [ColumnProperty.differs] using h .fixed
      enumValues := by simpa [ColumnProperty.differs] using h .values }
  · rintro ⟨hkind, htype, hlength, hprecision, hscale, hnullable, hunsigned, hauto, hdefault,
      hcomment, hfixed, hvalues⟩ property
    cases property <;> simp [ColumnProperty.differs, *]

theorem Index.same_iff_alike {a b : Index} : a.Same b ↔ a.Alike b :=
  Same.iff_kind_columns.trans ⟨fun h => ⟨h.1, h.2⟩, fun h => ⟨h.kind, h.columns⟩⟩

theorem ForeignKey.same_iff_alike {a b : ForeignKey} : a.Same b ↔ a.Alike b :=
  Same.iff_fields.trans
    ⟨fun ⟨hcolumns, htable, hreferenced, hupdate, hdelete⟩ =>
      ⟨hcolumns, htable, hreferenced, hupdate, hdelete⟩,
    fun h => ⟨h.columns, h.referencedTable, h.referencedColumns, h.onUpdate, h.onDelete⟩⟩

/-! ## Tables -/

/-- The columns of the primary key in order, if there is one. -/
def Table.primaryColumns? (table : Table) : Option (List String) :=
  table.primaryKey.map fun index => index.columns.map lowerCase

structure Table.Alike (a b : Table) : Prop where
  columns : Correspond Column.Alike a.columns b.columns
  primaryKey : a.primaryColumns? = b.primaryColumns?
  indexes : Correspond Index.Alike a.indexes b.indexes
  foreignKeys : Correspond ForeignKey.Alike a.foreignKeys b.foreignKeys

namespace Table

variable {a b : Table} (ha : a.Coherent) (hb : b.Coherent)

include ha hb

theorem primaryKeys_rel_iff :
    Option.Rel Index.Same a.primaryKey b.primaryKey ↔ a.primaryColumns? = b.primaryColumns? := by
  unfold primaryColumns?
  cases hpa : a.primaryKey with
  | none => cases b.primaryKey <;> simp
  | some p =>
      cases hpb : b.primaryKey with
      | none => simp
      | some q =>
          have hp : p.kind = .primary := by rw [ha.primary p hpa]; rfl
          have hq : q.kind = .primary := by rw [hb.primary q hpb]; rfl
          simp [Index.Same.iff_kind_columns, hp, hq]

theorem indexes_agree_iff :
    Agree Index.Same (lookup a.allIndexes) (lookup b.allIndexes) ↔
      a.primaryColumns? = b.primaryColumns? ∧ Correspond Index.Alike a.indexes b.indexes := by
  have hcorrespond : Agree Index.Same (lookup a.indexes) (lookup b.indexes) ↔
      Correspond Index.Alike a.indexes b.indexes :=
    (agree_iff_correspond ha.indexes.distinct hb.indexes.distinct).trans
      (Correspond.congr fun _ _ _ _ _ => Index.same_iff_alike)
  rw [← primaryKeys_rel_iff ha hb, ← hcorrespond]
  constructor
  · intro hagree
    refine ⟨?_, fun k => ?_⟩
    · rw [← ha.lookup_primary, ← hb.lookup_primary]
      exact hagree _
    · by_cases hk : k = Index.primaryKey
      · rw [hk, ha.lookup_indexes_primary, hb.lookup_indexes_primary]
        exact .none
      · rw [← ha.lookup_secondary hk, ← hb.lookup_secondary hk]
        exact hagree k
  · rintro ⟨hprimary, hindexes⟩ k
    by_cases hk : k = Index.primaryKey
    · rw [hk, ha.lookup_primary, hb.lookup_primary]
      exact hprimary
    · rw [ha.lookup_secondary hk, hb.lookup_secondary hk]
      exact hindexes k

theorem matches_iff_alike (hname : key a = key b) : a.Matches b ↔ a.Alike b := by
  have hcolumns : Agree Column.Same (lookup a.columns) (lookup b.columns) ↔
      Correspond Column.Alike a.columns b.columns :=
    (agree_iff_correspond ha.columns hb.columns).trans
      (Correspond.congr fun _ _ _ _ _ => Column.same_iff_alike)
  have hforeignKeys : Agree ForeignKey.Same (lookup a.foreignKeys) (lookup b.foreignKeys) ↔
      Correspond ForeignKey.Alike a.foreignKeys b.foreignKeys :=
    (agree_iff_correspond ha.foreignKeys.distinct hb.foreignKeys.distinct).trans
      (Correspond.congr fun _ _ _ _ _ => ForeignKey.same_iff_alike)
  constructor
  · intro h
    obtain ⟨hprimary, hindexes⟩ := (indexes_agree_iff ha hb).mp h.indexes
    exact ⟨hcolumns.mp h.columns, hprimary, hindexes, hforeignKeys.mp h.foreignKeys⟩
  · intro h
    exact ⟨hname, hcolumns.mpr h.columns,
      (indexes_agree_iff ha hb).mpr ⟨h.primaryKey, h.indexes⟩, hforeignKeys.mpr h.foreignKeys⟩

end Table

/-! ## Schemas -/

namespace Schema

def Alike (a b : Schema) : Prop :=
  Correspond Table.Alike a.tableList b.tableList

variable {a b : Schema}

theorem matches_iff_alike (ha : a.Coherent) (hb : b.Coherent) : a.Matches b ↔ a.Alike b :=
  (agree_iff_correspond ha.keyed.distinct hb.keyed.distinct).trans
    (Correspond.congr fun table htable other hother hkey =>
      Table.matches_iff_alike (ha.tables table htable) (hb.tables other hother) hkey)

/-- A difference is empty exactly between schemas that are alike, so that having
no difference is an equivalence. -/
theorem diff_isEmpty_iff_alike (ha : a.Built) (hb : b.Built) :
    ((a.diff b).isEmpty = true ↔ a.Alike b) ∧
      (a.diff a).isEmpty = true ∧
      ((a.diff b).isEmpty = true → (b.diff a).isEmpty = true) ∧
      ∀ c : Schema, c.Built → (a.diff b).isEmpty = true → (b.diff c).isEmpty = true →
        (a.diff c).isEmpty = true := by
  have ha := ha.wellFormed.coherent
  have hb := hb.wellFormed.coherent
  refine ⟨(diff_isEmpty_iff ha hb).trans (matches_iff_alike ha hb), ?_, fun hab => ?_,
    fun c hc hab hbc => ?_⟩
  · exact (diff_isEmpty_iff ha ha).mpr (.refl .refl _)
  · exact (diff_isEmpty_iff hb ha).mpr (((diff_isEmpty_iff ha hb).mp hab).symm .symm)
  · have hc := hc.wellFormed.coherent
    exact (diff_isEmpty_iff ha hc).mpr (((diff_isEmpty_iff ha hb).mp hab).trans .trans
      ((diff_isEmpty_iff hb hc).mp hbc))

/-- Schemas that only spell their names otherwise are alike. -/
theorem alike_respelled :
    ((ofTable (.ofColumn "a" "id")).diff (ofTable (.ofColumn "A" "ID"))).isEmpty = true ∧
      (ofTable (.ofColumn "a" "id")).Alike (ofTable (.ofColumn "A" "ID")) := by
  have hempty : ((ofTable (.ofColumn "a" "id")).diff (ofTable (.ofColumn "A" "ID"))).isEmpty =
      true := by decide +kernel
  exact ⟨hempty, (diff_isEmpty_iff_alike (ofTable_built (Table.ofColumn_built "a" "id"))
    (ofTable_built (Table.ofColumn_built "A" "ID"))).1.mp hempty⟩

end Schema

end SchemaDelta
