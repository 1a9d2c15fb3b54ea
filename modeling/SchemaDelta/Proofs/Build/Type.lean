import SchemaDelta.Proofs.Parsing.Column
import SchemaDelta.Proofs.Schema.Basic

/-!
# Types are built again

A column is written with a type of the MySQL mapping, in general another one than
it was built from.  The type that is written stands for the same column.
-/

namespace SchemaDelta

open Sql

/-- The column without what options make of it. -/
def Column.typed (column : Column) : Column where
  name := column.name
  kind := column.kind
  typeName := column.typeName
  length := column.length
  precision := column.precision
  scale := column.scale
  fixed := column.fixed
  enumValues := column.enumValues

/-- Strings and binaries of varying width have a length, and blobs have none.  Types
that the mapping does not know may have these names, and are free to do as they like. -/
structure Column.WidthKnown (column : Column) : Prop where
  varying : column.kind ∈ [.string, .binary] → column.typeName ∈ ["string", "binary"] →
    column.fixed = false → column.length ≠ none
  blob : column.kind = .binary → column.typeName = "blob" → column.length = none

instance (column : Column) : Decidable column.WidthKnown :=
  decidable_of_iff
    ((column.kind ∈ [.string, .binary] → column.typeName ∈ ["string", "binary"] →
        column.fixed = false → column.length ≠ none) ∧
      (column.kind = .binary → column.typeName = "blob" → column.length = none))
    ⟨fun h => ⟨h.1, h.2⟩, fun h => ⟨h.varying, h.blob⟩⟩

namespace Build

/-- The column of a name and a type, before its options. -/
def typedColumn (mapping : TypeMapping) (name : String) (dataType : DataType) : Column :=
  let raw := lowerCase dataType.name
  let mapped := mappedType mapping raw
  withTypeArgs raw dataType.args { name, kind := mapped.kind, typeName := mapped.name }

theorem column_eq_foldl (mapping : TypeMapping) (written : ColumnDef) :
    column mapping written
      = written.options.foldl withOption (typedColumn mapping written.name written.dataType) := rfl

theorem name_column (mapping : TypeMapping) (written : Sql.ColumnDef) :
    (column mapping written).name = written.name := by
  have htyped : (typedColumn mapping written.name written.dataType).name = written.name := by
    unfold typedColumn withTypeArgs withWidth
    dsimp only
    repeat' split
    all_goals rfl
  rw [column_eq_foldl]
  refine List.foldlRecOn (motive := fun column => column.name = written.name) written.options
    withOption htyped fun column hname option _ => ?_
  cases option <;> exact hname

end Build

/-! ## Canonical types -/

namespace TypeMapping

/-- What the MySQL mapping takes types to. -/
def mysqlMapped : List MappedType :=
  [⟨.boolean, "boolean"⟩, ⟨.integer, "smallint"⟩, ⟨.integer, "integer"⟩, ⟨.integer, "bigint"⟩,
    ⟨.decimal, "decimal"⟩, ⟨.float, "float"⟩, ⟨.string, "string"⟩, ⟨.text, "text"⟩,
    ⟨.binary, "binary"⟩, ⟨.binary, "blob"⟩, ⟨.datetime, "date"⟩, ⟨.datetime, "datetime"⟩,
    ⟨.datetime, "time"⟩, ⟨.enumeration, "enum"⟩, ⟨.enumeration, "set"⟩, ⟨.json, "json"⟩,
    ⟨.geometry, "geometry"⟩]

theorem normalize_eq (raw : String) :
    normalize raw
      = String.ofList (([' '].intercalate (Text.words raw.toList)).map Char.toLower) := by
  simp only [normalize, lowerCase, String.toList_ofList]

/-- The raw names of the MySQL types are written as they are looked up. -/
theorem normalize_of_mem_mysqlTypes : ∀ type ∈ mysqlTypes, normalize type.1 = type.1 := by
  have hnormal : ∀ type ∈ mysqlTypes,
      ([' '].intercalate (Text.words type.1.toList)).map Char.toLower = type.1.toList := by
    decide +kernel
  intro type htype
  rw [normalize_eq, hnormal type htype, String.ofList_toList]

theorem entries_foldl_withType {types : List (String × ColumnKind × String)}
    (h : ∀ type ∈ types, normalize type.1 = type.1) (mapping : TypeMapping) :
    (types.foldl (fun mapping (raw, kind, name) => mapping.withType raw kind name)
        mapping).types.entries
      = types.foldl (fun entries (raw, kind, name) =>
          SortedMap.insertEntry raw ⟨kind, name⟩ entries) mapping.types.entries := by
  induction types generalizing mapping with
  | nil => rfl
  | cons type types ih =>
      rw [List.foldl_cons, List.foldl_cons, ih fun other hother => h other (by simp [hother])]
      simp only [withType, SortedMap.insert, h type (by simp)]

/-- The MySQL types in the order of their raw names. -/
def mysqlEntries : List (String × MappedType) :=
  [("bigint", ⟨.integer, "bigint"⟩), ("binary", ⟨.binary, "binary"⟩),
    ("blob", ⟨.binary, "blob"⟩), ("bool", ⟨.boolean, "boolean"⟩),
    ("boolean", ⟨.boolean, "boolean"⟩), ("char", ⟨.string, "string"⟩),
    ("character", ⟨.string, "string"⟩), ("character varying", ⟨.string, "string"⟩),
    ("date", ⟨.datetime, "date"⟩), ("datetime", ⟨.datetime, "datetime"⟩),
    ("dec", ⟨.decimal, "decimal"⟩), ("decimal", ⟨.decimal, "decimal"⟩),
    ("double", ⟨.float, "float"⟩), ("double precision", ⟨.float, "float"⟩),
    ("enum", ⟨.enumeration, "enum"⟩), ("fixed", ⟨.decimal, "decimal"⟩),
    ("float", ⟨.float, "float"⟩), ("geometry", ⟨.geometry, "geometry"⟩),
    ("geometrycollection", ⟨.geometry, "geometry"⟩), ("int", ⟨.integer, "integer"⟩),
    ("integer", ⟨.integer, "integer"⟩), ("json", ⟨.json, "json"⟩),
    ("linestring", ⟨.geometry, "geometry"⟩), ("longblob", ⟨.binary, "blob"⟩),
    ("longtext", ⟨.text, "text"⟩), ("mediumblob", ⟨.binary, "blob"⟩),
    ("mediumint", ⟨.integer, "integer"⟩), ("mediumtext", ⟨.text, "text"⟩),
    ("multilinestring", ⟨.geometry, "geometry"⟩), ("multipoint", ⟨.geometry, "geometry"⟩),
    ("multipolygon", ⟨.geometry, "geometry"⟩), ("numeric", ⟨.decimal, "decimal"⟩),
    ("point", ⟨.float, "float"⟩), ("polygon", ⟨.geometry, "geometry"⟩),
    ("real", ⟨.float, "float"⟩), ("set", ⟨.enumeration, "set"⟩),
    ("smallint", ⟨.integer, "smallint"⟩), ("text", ⟨.text, "text"⟩),
    ("time", ⟨.datetime, "time"⟩), ("timestamp", ⟨.datetime, "datetime"⟩),
    ("tinyblob", ⟨.binary, "blob"⟩), ("tinyint", ⟨.boolean, "boolean"⟩),
    ("tinytext", ⟨.text, "text"⟩), ("varbinary", ⟨.binary, "binary"⟩),
    ("varchar", ⟨.string, "string"⟩), ("year", ⟨.datetime, "date"⟩)]

theorem foldl_insertEntry_mysqlTypes :
    mysqlTypes.foldl (fun entries (raw, kind, name) =>
      SortedMap.insertEntry raw (⟨kind, name⟩ : MappedType) entries) [] = mysqlEntries := by
  decide +kernel

theorem mysql_entries : mysql.types.entries = mysqlEntries :=
  (entries_foldl_withType normalize_of_mem_mysqlTypes .empty).trans foldl_insertEntry_mysqlTypes

theorem eq_of_types {mapping other : TypeMapping} (h : mapping.types = other.types) :
    mapping = other := by
  cases mapping
  cases other
  exact congrArg mk h

/-- The MySQL mapping with its entries at hand, for evaluations that would put them in order
again and again. -/
def mysqlSorted : TypeMapping :=
  ⟨⟨mysqlEntries, mysql_entries ▸ mysql.types.ascending⟩⟩

theorem mysql_eq : mysql = mysqlSorted :=
  eq_of_types (SortedMap.ext mysql_entries)

theorem mem_mysqlMapped {raw : String} {mapped : MappedType}
    (h : mysql.resolve? raw = some mapped) : mapped ∈ mysqlMapped := by
  have hmem := SortedMap.get?_eq_some_iff.mp h
  rw [mysql_entries] at hmem
  have hall : ∀ entry ∈ mysqlEntries, entry.2 ∈ mysqlMapped := by decide +kernel
  exact hall _ hmem

end TypeMapping

/-! ## Written types -/

/-- The type that a column is written with can be read, and stands for what the
column is. -/
structure Column.Spelled (column : Column) : Prop where
  typeName : IsTypeName column.writtenType.name
  typeArgs : column.writtenType.args.Fits
  typed : Build.typedColumn .mysql column.name column.writtenType = column.typed

namespace Sql.TypeArgs

theorem fits_none : none.Fits := by
  simp [Fits, arguments]

theorem fits_length {n : Nat} : (length n).Fits ↔ n ≤ 4294967295 := by
  simp [Fits, arguments]

theorem fits_precisionScale {p s : Nat} :
    (precisionScale p s).Fits ↔ p ≤ 4294967295 ∧ s ≤ 4294967295 := by
  simp [Fits, arguments]

theorem fits_values (values : List String) : (TypeArgs.values values).Fits := by
  simp [Fits, arguments]

end Sql.TypeArgs

/-- The names that known types are written with, and what the mapping takes them to. -/
def Dialect.mysqlTypeNames : List (String × MappedType) :=
  [("TINYINT", ⟨.boolean, "boolean"⟩), ("SMALLINT", ⟨.integer, "smallint"⟩),
    ("INT", ⟨.integer, "integer"⟩), ("BIGINT", ⟨.integer, "bigint"⟩),
    ("DECIMAL", ⟨.decimal, "decimal"⟩), ("DOUBLE", ⟨.float, "float"⟩),
    ("CHAR", ⟨.string, "string"⟩), ("VARCHAR", ⟨.string, "string"⟩), ("TEXT", ⟨.text, "text"⟩),
    ("BINARY", ⟨.binary, "binary"⟩), ("VARBINARY", ⟨.binary, "binary"⟩),
    ("BLOB", ⟨.binary, "blob"⟩), ("DATE", ⟨.datetime, "date"⟩),
    ("DATETIME", ⟨.datetime, "datetime"⟩), ("TIME", ⟨.datetime, "time"⟩),
    ("ENUM", ⟨.enumeration, "enum"⟩), ("SET", ⟨.enumeration, "set"⟩), ("JSON", ⟨.json, "json"⟩),
    ("GEOMETRY", ⟨.geometry, "geometry"⟩)]

deriving instance DecidableEq for TokenScan

theorem isWord_of_mem_mysqlTypeNames :
    ∀ entry ∈ Dialect.mysqlTypeNames, IsWord entry.1.toList := by
  unfold IsWord Whole
  decide +kernel

theorem resolve?_of_mem_mysqlTypeNames :
    ∀ entry ∈ Dialect.mysqlTypeNames,
      TypeMapping.mysql.resolve? (lowerCase entry.1) = some entry.2 := by
  rw [TypeMapping.mysql_eq]
  decide +kernel

namespace Build

variable {name : String} {dataType : DataType}

theorem typedColumn_of_resolve {args : TypeArgs} {raw : String} {mapped : MappedType}
    (h : TypeMapping.mysql.resolve? (lowerCase raw) = some mapped) :
    typedColumn .mysql name ⟨raw, args⟩
      = withTypeArgs (lowerCase raw) args
          { name, kind := mapped.kind, typeName := mapped.name } := by
  simp only [typedColumn, mappedType, h, Option.getD_some]

theorem typedColumn_of_unknown
    (h : TypeMapping.mysql.resolve? (lowerCase dataType.name) = none) :
    typedColumn .mysql name dataType
      = withTypeArgs (lowerCase dataType.name) dataType.args
          { name, kind := .other, typeName := lowerCase dataType.name } := by
  simp only [typedColumn, mappedType, h, Option.getD_none]

/-- The known types are written with names that the mapping takes to them. -/
theorem spelled_of_mem {column : Column} (raw : String) (mapped : MappedType) {args : TypeArgs}
    (hmem : (raw, mapped) ∈ Dialect.mysqlTypeNames) (hwritten : column.writtenType = ⟨raw, args⟩)
    (hfits : args.Fits)
    (htyped : withTypeArgs (lowerCase raw) args
      { name := column.name, kind := mapped.kind, typeName := mapped.name } = column.typed) :
    column.Spelled := by
  have hword : IsWord raw.toList := isWord_of_mem_mysqlTypeNames (raw, mapped) hmem
  have hresolve : TypeMapping.mysql.resolve? (lowerCase raw) = some mapped :=
    resolve?_of_mem_mysqlTypeNames (raw, mapped) hmem
  constructor
  · rw [hwritten]
    exact .one hword
  · rwa [hwritten]
  · rw [hwritten, typedColumn_of_resolve hresolve, htyped]

/-- An unknown type is written in capitals, with its arguments. -/
theorem spelled_unknown (hname : IsTypeName dataType.name) (hfits : dataType.args.Fits)
    (hunknown : TypeMapping.mysql.resolve? (lowerCase dataType.name) = none) :
    (typedColumn .mysql name dataType).Spelled := by
  have htyped : ∀ args, typedColumn .mysql name ⟨upperCase (lowerCase dataType.name), args⟩
      = withTypeArgs (lowerCase dataType.name) args
          { name, kind := .other, typeName := lowerCase dataType.name } := by
    intro args
    simp only [typedColumn, mappedType, lowerCase_upperCase, lowerCase_lowerCase, hunknown,
      Option.getD_none]
  have hcapitals : IsTypeName (upperCase (lowerCase dataType.name)) :=
    (hname.recase changesCase_toLower).recase changesCase_toUpper
  rw [typedColumn_of_unknown hunknown]
  cases hargs : dataType.args with
  | none => exact ⟨hcapitals, TypeArgs.fits_none, htyped .none⟩
  | length n =>
      rw [hargs] at hfits
      exact ⟨hcapitals, hfits, htyped (.length n)⟩
  | precisionScale p s =>
      rw [hargs] at hfits
      exact ⟨hcapitals, hfits, htyped (.precisionScale p s)⟩
  | values vs =>
      cases vs with
      | nil => exact ⟨hcapitals, TypeArgs.fits_none, htyped .none⟩
      | cons v vs => exact ⟨hcapitals, TypeArgs.fits_values _, htyped (.values (v :: vs))⟩

theorem le_of_lengthArg? {args : TypeArgs} (hfits : args.Fits) {n : Nat}
    (h : lengthArg? args = some n) : n ≤ 4294967295 := by
  cases args with
  | length m =>
      obtain rfl : m = n := Option.some.inj h
      exact TypeArgs.fits_length.mp hfits
  | _ => cases h

section Known

variable {raw : String} {args : TypeArgs} {kind : ColumnKind} {typeName : String}

/-- The kinds of columns that arguments say nothing about. -/
def plainKinds : List ColumnKind :=
  [.integer, .float, .text, .datetime, .geometry, .json]

theorem withTypeArgs_plain (hkind : kind ∈ plainKinds) :
    withTypeArgs raw args { name, kind, typeName } = { name, kind, typeName } := by
  simp only [plainKinds, List.mem_cons, List.not_mem_nil, or_false] at hkind
  rcases hkind with rfl | rfl | rfl | rfl | rfl | rfl
  all_goals rfl

theorem spelled_plain (hkind : kind ∈ plainKinds)
    (hmem : (⟨kind, typeName⟩ : MappedType) ∈ TypeMapping.mysqlMapped) :
    (withTypeArgs raw args { name, kind, typeName }).Spelled := by
  have hnames : ∀ mapped ∈ TypeMapping.mysqlMapped, mapped.kind ∈ plainKinds →
      (({ name := "", kind := mapped.kind, typeName := mapped.name } : Column).writtenType.name,
        mapped) ∈ Dialect.mysqlTypeNames := by decide
  have hargs : ({ name, kind, typeName } : Column).writtenType.args = .none := by
    simp only [plainKinds, List.mem_cons, List.not_mem_nil, or_false] at hkind
    rcases hkind with rfl | rfl | rfl | rfl | rfl | rfl
    all_goals rfl
  rw [withTypeArgs_plain hkind]
  refine spelled_of_mem _ ⟨kind, typeName⟩ (hnames _ hmem hkind) ?_ TypeArgs.fits_none ?_
  · rw [← hargs]
    rfl
  · rw [withTypeArgs_plain hkind]
    rfl

theorem spelled_boolean :
    (withTypeArgs raw args { name, kind := .boolean, typeName := "boolean" }).Spelled := by
  refine spelled_of_mem "TINYINT" ⟨.boolean, "boolean"⟩ (by decide) rfl ?_ rfl
  exact TypeArgs.fits_length.mpr (by decide)

theorem spelled_decimal (hfits : args.Fits) :
    (withTypeArgs raw args { name, kind := .decimal, typeName := "decimal" }).Spelled := by
  have hmem : ("DECIMAL", ⟨.decimal, "decimal"⟩) ∈ Dialect.mysqlTypeNames := by decide
  have hdefault : (TypeArgs.precisionScale 10 0).Fits := by
    simp [TypeArgs.fits_precisionScale]
  cases args with
  | length p =>
      have hp : (TypeArgs.precisionScale p 0).Fits := by
        simpa [TypeArgs.fits_precisionScale, TypeArgs.fits_length] using hfits
      exact spelled_of_mem _ _ hmem rfl hp rfl
  | precisionScale p s => exact spelled_of_mem _ _ hmem rfl hfits rfl
  | _ => exact spelled_of_mem _ _ hmem rfl hdefault rfl

theorem spelled_enumeration
    (hmem : (upperCase typeName, ⟨.enumeration, typeName⟩) ∈ Dialect.mysqlTypeNames) :
    (withTypeArgs raw args { name, kind := .enumeration, typeName }).Spelled := by
  cases args <;> exact spelled_of_mem _ _ hmem rfl (TypeArgs.fits_values _) rfl

/-- A string or a binary of fixed or varying width. -/
theorem spelled_sized {fixed : Bool} {n : Nat} (hn : n ≤ 4294967295)
    (hmem : (⟨kind, typeName⟩ : MappedType) ∈ [⟨.string, "string"⟩, ⟨.binary, "binary"⟩]) :
    ({ name, kind, typeName, length := some n, fixed } : Column).Spelled := by
  have hfits := TypeArgs.fits_length.mpr hn
  simp only [List.mem_cons, MappedType.mk.injEq, List.not_mem_nil, or_false] at hmem
  rcases hmem with ⟨rfl, rfl⟩ | ⟨rfl, rfl⟩
  · cases fixed
    · exact spelled_of_mem "VARCHAR" ⟨.string, "string"⟩ (by decide) rfl hfits rfl
    · exact spelled_of_mem "CHAR" ⟨.string, "string"⟩ (by decide) rfl hfits rfl
  · cases fixed
    · exact spelled_of_mem "VARBINARY" ⟨.binary, "binary"⟩ (by decide) rfl hfits rfl
    · exact spelled_of_mem "BINARY" ⟨.binary, "binary"⟩ (by decide) rfl hfits rfl

theorem spelled_width
    (hmem : (⟨kind, typeName⟩ : MappedType) ∈ [⟨.string, "string"⟩, ⟨.binary, "binary"⟩])
    (hfits : args.Fits) (hwidth : (withTypeArgs raw args { name, kind, typeName }).WidthKnown) :
    (withTypeArgs raw args { name, kind, typeName }).Spelled := by
  have hname : typeName ∈ ["string", "binary"] ∧ kind ∈ [.string, .binary] := by
    simp only [List.mem_cons, MappedType.mk.injEq, List.not_mem_nil, or_false] at hmem
    rcases hmem with ⟨rfl, rfl⟩ | ⟨rfl, rfl⟩ <;> decide
  have hargs : withTypeArgs raw args { name, kind, typeName }
      = { name, kind, typeName, fixed := !isVarying raw,
          length := if !isVarying raw then (lengthArg? args).or (some 1) else lengthArg? args } := by
    simp only [List.mem_cons, MappedType.mk.injEq, List.not_mem_nil, or_false] at hmem
    rcases hmem with ⟨rfl, rfl⟩ | ⟨rfl, rfl⟩ <;> rfl
  rw [hargs] at hwidth ⊢
  cases hvarying : isVarying raw with
  | true =>
      cases hlength : lengthArg? args with
      | none =>
          rw [hvarying, hlength] at hwidth
          exact absurd rfl (hwidth.varying hname.2 hname.1 rfl)
      | some n => exact spelled_sized (le_of_lengthArg? hfits hlength) hmem
  | false =>
      cases hlength : lengthArg? args with
      | none => exact spelled_sized (by decide) hmem
      | some n => exact spelled_sized (le_of_lengthArg? hfits hlength) hmem

theorem spelled_blob (hwidth : (withTypeArgs raw args
      { name, kind := .binary, typeName := "blob" }).WidthKnown) :
    (withTypeArgs raw args { name, kind := .binary, typeName := "blob" }).Spelled := by
  have hargs : withTypeArgs raw args { name, kind := .binary, typeName := "blob" }
      = { name, kind := .binary, typeName := "blob", length := lengthArg? args } := rfl
  rw [hargs] at hwidth ⊢
  have hnone : lengthArg? args = none := hwidth.blob rfl rfl
  rw [hnone]
  exact spelled_of_mem "BLOB" ⟨.binary, "blob"⟩ (by decide) rfl TypeArgs.fits_none rfl

end Known

theorem spelled_known {mapped : MappedType} (hfits : dataType.args.Fits)
    (hmapped : TypeMapping.mysql.resolve? (lowerCase dataType.name) = some mapped)
    (hwidth : (typedColumn .mysql name dataType).WidthKnown) :
    (typedColumn .mysql name dataType).Spelled := by
  have hmem := TypeMapping.mem_mysqlMapped hmapped
  rw [typedColumn_of_resolve hmapped] at hwidth ⊢
  by_cases hplain : mapped.kind ∈ plainKinds
  · exact spelled_plain hplain hmem
  · have hothers : ∀ mapped ∈ TypeMapping.mysqlMapped, mapped.kind ∉ plainKinds →
        mapped = ⟨.boolean, "boolean"⟩ ∨ mapped = ⟨.decimal, "decimal"⟩
          ∨ mapped = ⟨.string, "string"⟩ ∨ mapped = ⟨.binary, "binary"⟩
          ∨ mapped = ⟨.binary, "blob"⟩ ∨ mapped = ⟨.enumeration, "enum"⟩
          ∨ mapped = ⟨.enumeration, "set"⟩ := by decide
    rcases hothers mapped hmem hplain with rfl | rfl | rfl | rfl | rfl | rfl | rfl
    · exact spelled_boolean
    · exact spelled_decimal hfits
    · exact spelled_width (by decide) hfits hwidth
    · exact spelled_width (by decide) hfits hwidth
    · exact spelled_blob hwidth
    · exact spelled_enumeration (by decide)
    · exact spelled_enumeration (by decide)

/-- What a column is built from says how it is written. -/
theorem spelled_typedColumn (hname : IsTypeName dataType.name) (hfits : dataType.args.Fits)
    (hwidth : (typedColumn .mysql name dataType).WidthKnown) :
    (typedColumn .mysql name dataType).Spelled := by
  cases hresolve : TypeMapping.mysql.resolve? (lowerCase dataType.name) with
  | none => exact spelled_unknown hname hfits hresolve
  | some mapped => exact spelled_known hfits hresolve hwidth

end Build

end SchemaDelta
