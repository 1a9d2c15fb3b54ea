import SchemaDelta.Proofs.Build.Table
import SchemaDelta.Proofs.Edit.Statements
import SchemaDelta.Proofs.Parsing.Sound

/-!
# What tables are built from

A table that is built from what the parser reads has columns of types and with
defaults that can be written, and keys of at least one column.
-/

namespace SchemaDelta

open Named Sql

/-! ## Columns -/

/-- The column has a type that was read and options that were read. -/
structure Column.Declared (column : Column) : Prop where
  type : ∃ name dataType, IsTypeName dataType.name ∧ dataType.args.Fits
    ∧ column.typed = Build.typedColumn .mysql name dataType
  default : ∀ value ∈ column.default, value.Readable
  comment : column.comment ≠ some ""

theorem Column.Spelled.of_typed {column : Column} (h : column.typed.Spelled) : column.Spelled :=
  ⟨h.typeName, h.typeArgs, h.typed⟩

theorem Column.WidthKnown.typed {column : Column} (h : column.WidthKnown) :
    column.typed.WidthKnown :=
  ⟨h.varying, h.blob⟩

theorem Column.Declared.restorable {column : Column} (h : column.Declared)
    (hwidth : column.WidthKnown) : column.Restorable := by
  obtain ⟨name, dataType, hname, hfits, htyped⟩ := h.type
  have hspelled := htyped ▸ hwidth.typed
  refine ⟨.of_typed ?_, h.default, h.comment⟩
  rw [htyped]
  exact Build.spelled_typedColumn hname hfits hspelled

theorem commentOf_ne (text : String) : Column.commentOf text ≠ some "" := by
  unfold Column.commentOf
  split
  next => simp
  next hne => simpa using hne

namespace Build

theorem declared_withOption {column : Column} (h : column.Declared) {option : ColumnOption}
    (hoption : ∀ literal, option = .default literal → literal.Sound) :
    (withOption column option).Declared := by
  cases option with
  | default literal => exact ⟨h.type, hoption literal rfl, h.comment⟩
  | comment text => exact ⟨h.type, h.default, commentOf_ne text⟩
  | _ => exact ⟨h.type, h.default, h.comment⟩

theorem typed_withWidth (raw : String) (args : TypeArgs) (column : Column) :
    (withWidth raw args column).typed = withWidth raw args column.typed := by
  unfold withWidth
  exact apply_ite Column.typed _ _ _

/-- The arguments of a type leave the options alone. -/
theorem typed_withTypeArgs (raw : String) (args : TypeArgs) (column : Column) :
    (withTypeArgs raw args column).typed = withTypeArgs raw args column.typed := by
  have hkind : column.typed.kind = column.kind := rfl
  unfold withTypeArgs
  rw [hkind]
  cases column.kind
  case string => exact typed_withWidth raw args column
  case binary => exact typed_withWidth raw args column
  all_goals cases args <;> rfl

theorem typed_typedColumn (mapping : TypeMapping) (name : String) (dataType : DataType) :
    (typedColumn mapping name dataType).typed = typedColumn mapping name dataType :=
  typed_withTypeArgs _ _ _

/-- A column that was read is declared. -/
theorem declared_column {written : ColumnDef} (h : written.Sound) :
    (column .mysql written).Declared := by
  have hself := typed_typedColumn .mysql written.name written.dataType
  have hstart : (typedColumn .mysql written.name written.dataType).Declared := by
    refine ⟨⟨written.name, written.dataType, h.typeName, h.typeArgs, hself⟩, ?_, ?_⟩
    · rw [← hself]
      simp [Column.typed]
    · rw [← hself]
      simp [Column.typed]
  rw [column_eq_foldl]
  have hfold : ∀ {options : List ColumnOption} {column : Column}, column.Declared →
      (∀ literal, .default literal ∈ options → literal.Sound) →
        (options.foldl withOption column).Declared := by
    intro options
    induction options with
    | nil => exact fun hcolumn _ => hcolumn
    | cons option options ih =>
        intro column hcolumn hoptions
        refine ih (declared_withOption hcolumn fun literal heq => ?_) fun literal hmem =>
          hoptions literal (by simp [hmem])
        exact hoptions literal (by simp [heq])
  exact hfold hstart h.default

end Build

/-! ## Tables -/

/-- The columns are declared, and every key has columns. -/
structure Table.Declared (table : Table) : Prop where
  columns : ∀ column ∈ table.columns, column.Declared
  indexes : ∀ index ∈ table.allIndexes, index.columns ≠ []
  foreignKeys : ∀ key ∈ table.foreignKeys, key.columns ≠ [] ∧ key.referencedColumns ≠ []

namespace Table

variable {table edited : Table}

theorem ne_nil_of_resolve {owner : KeyOwner} {names resolved : List String} (hne : names ≠ [])
    (h : table.resolveColumns owner names = .ok resolved) : resolved ≠ [] := by
  rintro rfl
  exact hne (List.length_eq_zero_iff.mp (length_of_resolve h).symm)

namespace Declared

theorem addColumn (h : table.Declared) {column : Column} (hcolumn : column.Declared)
    (hok : table.addColumn column = .ok edited) : edited.Declared := by
  obtain ⟨-, -, rfl⟩ := addColumn_eq_ok_iff.mp hok
  refine ⟨fun other hother => ?_, h.indexes, h.foreignKeys⟩
  rcases List.mem_append.mp hother with hother | hother
  · exact h.columns other hother
  · rwa [List.mem_singleton.mp hother]

theorem setPrimaryKey (h : table.Declared) {columns : List String} (hne : columns ≠ [])
    (hok : table.setPrimaryKey columns = .ok edited) : edited.Declared := by
  obtain ⟨-, resolved, hresolve, rfl⟩ := setPrimaryKey_eq_ok_iff.mp hok
  refine ⟨fun column hcolumn => ?_, fun index hindex => ?_, h.foreignKeys⟩
  · obtain ⟨other, hother, rfl⟩ := List.mem_map.mp hcolumn
    have hdeclared := h.columns other hother
    split
    next => exact ⟨hdeclared.type, hdeclared.default, hdeclared.comment⟩
    next => exact hdeclared
  · rcases List.mem_append.mp hindex with hindex | hindex
    · obtain rfl := Option.some.inj (Option.mem_toList.mp hindex)
      exact ne_nil_of_resolve hne hresolve
    · exact h.indexes index (List.mem_append_right _ hindex)

theorem addIndex (h : table.Declared) {index : Index} (hne : index.columns ≠ [])
    (hok : table.addIndex index = .ok edited) : edited.Declared := by
  cases hkind : index.isPrimary with
  | true =>
      rw [addIndex_primary hkind] at hok
      exact h.setPrimaryKey hne hok
  | false =>
      obtain ⟨-, -, resolved, hresolve, rfl⟩ := (addIndex_eq_ok_iff hkind).mp hok
      refine ⟨h.columns, fun other hother => ?_, h.foreignKeys⟩
      rcases List.mem_append.mp hother with hother | hother
      · exact h.indexes other (List.mem_append_left _ hother)
      · rcases List.mem_cons.mp ((insert_perm _ _).mem_iff.mp hother) with rfl | hother
        · exact ne_nil_of_resolve hne hresolve
        · exact h.indexes other (List.mem_append_right _ hother)

theorem addForeignKey (h : table.Declared) {key : ForeignKey} (hne : key.columns ≠ [])
    (hreferenced : key.referencedColumns ≠ []) (hok : table.addForeignKey key = .ok edited) :
    edited.Declared := by
  obtain ⟨-, -, resolved, hresolve, rfl⟩ := addForeignKey_eq_ok_iff.mp hok
  refine ⟨h.columns, h.indexes, fun other hother => ?_⟩
  rcases List.mem_cons.mp ((insert_perm _ _).mem_iff.mp hother) with rfl | hother
  · exact ⟨ne_nil_of_resolve hne hresolve, hreferenced⟩
  · exact h.foreignKeys other hother

end Declared

end Table

/-! ## Statements -/

namespace Build

variable {written : CreateTable} {table : Table}

theorem mem_nameIndexes {taken : List String} {defs : List IndexDef} {index : Index}
    (h : index ∈ nameIndexes taken defs) : ∃ d ∈ defs, index.columns = d.columns := by
  induction defs generalizing taken with
  | nil => cases h
  | cons first defs ih =>
      have hcases : index.columns = first.columns ∨ ∃ taken, index ∈ nameIndexes taken defs := by
        rw [nameIndexes] at h
        split at h
        all_goals
          rcases List.mem_cons.mp h with rfl | h
          · exact .inl rfl
          · exact .inr ⟨_, h⟩
      rcases hcases with heq | ⟨_, hrest⟩
      · exact ⟨first, by simp, heq⟩
      · obtain ⟨d, hd, heq⟩ := ih hrest
        exact ⟨d, by simp [hd], heq⟩

theorem mem_nameForeignKeys {name : String} {taken : List String} {ordinal : Nat}
    {defs : List ForeignKeyDef} {entry : String × ForeignKeyDef}
    (h : entry ∈ nameForeignKeys name taken ordinal defs) : entry.2 ∈ defs := by
  induction defs generalizing taken ordinal with
  | nil => cases h
  | cons first defs ih =>
      rw [nameForeignKeys] at h
      split at h
      all_goals
        rcases List.mem_cons.mp h with rfl | h
        · exact List.mem_cons_self
        · exact List.mem_cons_of_mem _ (ih h)

theorem mem_definitions_of_picked {α : Type} {pick : Definition → Option α} {f : α → Definition}
    (hpick : ∀ definition a, pick definition = some a → f a = definition) {a : α}
    (h : a ∈ written.definitions.filterMap pick) : f a ∈ written.definitions := by
  obtain ⟨definition, hmem, hsome⟩ := List.mem_filterMap.mp h
  rwa [hpick definition a hsome]

theorem sound_of_mem_columns (h : written.Sound) : ∀ column ∈ written.columns, column.Sound :=
  fun column hcolumn => h (.column column) (mem_definitions_of_picked
    (fun definition _ hsome => by cases definition <;> cases hsome; rfl) hcolumn)

theorem ne_nil_of_primaryKeyClauses (h : written.Sound) :
    ∀ columns ∈ primaryKeyClauses written, columns ≠ [] :=
  fun columns hcolumns => h (.primaryKey columns) (mem_definitions_of_picked
    (fun definition _ hsome => by cases definition <;> cases hsome; rfl) hcolumns)

theorem ne_nil_of_indexes (h : written.Sound) : ∀ index ∈ indexes written, index.columns ≠ [] := by
  intro index hindex
  obtain ⟨d, hd, heq⟩ := mem_nameIndexes hindex
  rw [heq]
  rcases List.mem_append.mp hd with hd | hd
  · obtain ⟨column, -, rfl⟩ := List.mem_map.mp hd
    simp
  · exact h (.index d) (mem_definitions_of_picked
      (fun definition _ hsome => by cases definition <;> cases hsome; rfl) hd)

theorem ne_nil_of_foreignKeys (h : written.Sound) :
    ∀ key ∈ foreignKeys written, key.columns ≠ [] ∧ key.referencedColumns ≠ [] := by
  intro key hkey
  obtain ⟨⟨name, d⟩, hd, rfl⟩ := List.mem_map.mp hkey
  exact h (.foreignKey d) (mem_definitions_of_picked
    (fun definition _ hsome => by cases definition <;> cases hsome; rfl) (mem_nameForeignKeys hd))

/-- What is built of a statement that was read. -/
def Sourced (table : Table) : Prop :=
  table.Built ∧ table.Declared

theorem addPrimaryKeys_keeps (h : written.Sound) {edited : Table} (htable : Sourced table)
    (hok : addPrimaryKeys written table = .ok edited) : Sourced edited := by
  have hstep : ∀ {columns : List String} {b c : Table}, columns ≠ [] → Sourced b →
      b.setPrimaryKey columns = .ok c → Sourced c := fun hne hb hset =>
    ⟨hb.1.setPrimaryKey hset, hb.2.setPrimaryKey hne hset⟩
  obtain ⟨middle, hclauses, hok⟩ := bind_eq_ok_iff.mp hok
  have hmiddle := foldlM_keeps (P := Sourced)
    (fun columns hmem b c => hstep (ne_nil_of_primaryKeyClauses h columns hmem)) htable hclauses
  split at hok
  next => exact hstep (by simp) hmiddle hok
  next =>
    obtain rfl := Except.ok.inj hok
    exact hmiddle

theorem sourced_table (h : written.Sound) (hok : Build.table .mysql written = .ok table) :
    Sourced table := by
  have hnew : Sourced { name := written.name } :=
    ⟨.new _, by simp, by simp [Table.allIndexes], by simp⟩
  obtain ⟨columned, hcolumns, hok⟩ := bind_eq_ok_iff.mp hok
  have hcolumned := foldlM_keeps (P := Sourced) (fun added hmem b c hb hadd => by
    obtain ⟨definition, hdefinition, rfl⟩ := List.mem_map.mp hmem
    exact ⟨hb.1.addColumn hadd,
      hb.2.addColumn (declared_column (sound_of_mem_columns h _ hdefinition)) hadd⟩) hnew hcolumns
  obtain ⟨keyed, hprimary, hok⟩ := bind_eq_ok_iff.mp hok
  have hkeyed := addPrimaryKeys_keeps h hcolumned hprimary
  obtain ⟨indexed, hindexes, hok⟩ := bind_eq_ok_iff.mp hok
  have hindexed := foldlM_keeps (P := Sourced) (fun index hmem b c hb hadd =>
    ⟨hb.1.addIndex hadd, hb.2.addIndex (ne_nil_of_indexes h index hmem) hadd⟩) hkeyed hindexes
  exact foldlM_keeps (P := Sourced) (fun key hmem b c hb hadd =>
    ⟨hb.1.addForeignKey hadd, hb.2.addForeignKey (ne_nil_of_foreignKeys h key hmem).1
      (ne_nil_of_foreignKeys h key hmem).2 hadd⟩) hindexed hok

end Build

end SchemaDelta
