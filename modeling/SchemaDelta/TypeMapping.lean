import SchemaDelta.Schema.Column
import SchemaDelta.SortedMap
import SchemaDelta.Text.Blank

/-!
# Type mappings

A mapping takes the raw name of a column type to a kind and a canonical name.
Raw names are looked up ignoring ASCII case, and with each run of blanks taken
for one space.
-/

namespace SchemaDelta

structure MappedType where
  kind : ColumnKind
  name : String
  deriving Repr, DecidableEq, Inhabited

structure TypeMapping where
  types : SortedMap MappedType
  deriving DecidableEq, Inhabited

namespace TypeMapping

/-- The form of a raw name that is looked up. -/
def normalize (raw : String) : String :=
  lowerCase (String.ofList ([' '].intercalate (Text.words raw.toList)))

def empty : TypeMapping :=
  ⟨.empty⟩

def withType (mapping : TypeMapping) (raw : String) (kind : ColumnKind) (name : String) :
    TypeMapping :=
  ⟨mapping.types.insert (normalize raw) ⟨kind, name⟩⟩

def resolve? (mapping : TypeMapping) (raw : String) : Option MappedType :=
  mapping.types.get? (normalize raw)

def size (mapping : TypeMapping) : Nat :=
  mapping.types.size

def isEmpty (mapping : TypeMapping) : Bool :=
  mapping.types.isEmpty

def mysqlTypes : List (String × ColumnKind × String) :=
  [("tinyint", .boolean, "boolean"),
    ("bool", .boolean, "boolean"),
    ("boolean", .boolean, "boolean"),
    ("smallint", .integer, "smallint"),
    ("mediumint", .integer, "integer"),
    ("int", .integer, "integer"),
    ("integer", .integer, "integer"),
    ("bigint", .integer, "bigint"),
    ("decimal", .decimal, "decimal"),
    ("numeric", .decimal, "decimal"),
    ("dec", .decimal, "decimal"),
    ("fixed", .decimal, "decimal"),
    ("float", .float, "float"),
    ("double", .float, "float"),
    ("double precision", .float, "float"),
    ("real", .float, "float"),
    ("point", .float, "float"),
    ("char", .string, "string"),
    ("character", .string, "string"),
    ("varchar", .string, "string"),
    ("character varying", .string, "string"),
    ("tinytext", .text, "text"),
    ("text", .text, "text"),
    ("mediumtext", .text, "text"),
    ("longtext", .text, "text"),
    ("binary", .binary, "binary"),
    ("varbinary", .binary, "binary"),
    ("tinyblob", .binary, "blob"),
    ("blob", .binary, "blob"),
    ("mediumblob", .binary, "blob"),
    ("longblob", .binary, "blob"),
    ("date", .datetime, "date"),
    ("year", .datetime, "date"),
    ("datetime", .datetime, "datetime"),
    ("timestamp", .datetime, "datetime"),
    ("time", .datetime, "time"),
    ("enum", .enumeration, "enum"),
    ("set", .enumeration, "set"),
    ("json", .json, "json"),
    ("geometry", .geometry, "geometry"),
    ("linestring", .geometry, "geometry"),
    ("polygon", .geometry, "geometry"),
    ("multipoint", .geometry, "geometry"),
    ("multilinestring", .geometry, "geometry"),
    ("multipolygon", .geometry, "geometry"),
    ("geometrycollection", .geometry, "geometry")]

def mysql : TypeMapping :=
  mysqlTypes.foldl (fun mapping (raw, kind, name) => mapping.withType raw kind name) empty

end TypeMapping

end SchemaDelta
