import SchemaDelta.Diff.Schema
import SchemaDelta.Json.Value

/-!
# Schemas and differences as JSON

Fields come in the order of their declaration.  Lists of a table difference are
left out when they are empty.
-/

namespace SchemaDelta

open JsonValue (ofNat ofInt ofOption ofList ofStrings optionalField listField)

def DefaultValue.toJson (default : DefaultValue) : JsonValue :=
  let value : JsonValue :=
    match default with
    | .integer value => ofInt value
    | .string value => .string value
    | .expression text => .string text
  .object [("kind", .string default.label), ("value", value)]

def Column.toJson (column : Column) : JsonValue :=
  .object ([
    ("name", .string column.name),
    ("kind", .string column.kind.label),
    ("type_name", .string column.typeName),
    ("length", ofOption ofNat column.length),
    ("precision", ofOption ofNat column.precision),
    ("scale", ofOption ofNat column.scale),
    ("nullable", .bool column.nullable),
    ("unsigned", .bool column.unsigned),
    ("autoincrement", .bool column.autoIncrement),
    ("default", ofOption DefaultValue.toJson column.default),
    ("comment", ofOption .string column.comment),
    ("fixed", .bool column.fixed)]
    ++ listField "enum_values" .string column.enumValues)

def Index.toJson (index : Index) : JsonValue :=
  .object [
    ("name", .string index.name),
    ("kind", .string index.kind.label),
    ("columns", ofStrings index.columns)]

def ForeignKey.toJson (key : ForeignKey) : JsonValue :=
  .object [
    ("name", .string key.name),
    ("columns", ofStrings key.columns),
    ("referenced_table", .string key.referencedTable),
    ("referenced_columns", ofStrings key.referencedColumns),
    ("on_update", .string key.onUpdate.label),
    ("on_delete", .string key.onDelete.label)]

def Table.toJson (table : Table) : JsonValue :=
  .object ([
    ("name", .string table.name),
    ("columns", ofList Column.toJson table.columns)]
    ++ optionalField "primary_key" Index.toJson table.primaryKey
    ++ [("indexes", ofList Index.toJson table.indexes),
      ("foreign_keys", ofList ForeignKey.toJson table.foreignKeys)])

def Schema.tablesJson (schema : Schema) : JsonValue :=
  .object (schema.tables.entries.map fun (key, table) => (key, table.toJson))

def Schema.toJson (schema : Schema) : JsonValue :=
  .object (optionalField "name" .string schema.name ++ [("tables", schema.tablesJson)])

def Change.toJson {α : Type} (encode : α → JsonValue) (change : Change α) : JsonValue :=
  .object [("from", encode change.old), ("to", encode change.new)]

def columnChangeJson (change : Change Column) : JsonValue :=
  let properties := change.old.differences change.new
  .object [
    ("from", change.old.toJson),
    ("to", change.new.toJson),
    ("changed_properties", ofList (fun property => .string property.label) properties)]

/-- The four lists of a difference, named after what they hold. -/
def Delta.fields {α : Type} (plural : String) (encode : α → JsonValue)
    (encodeChange : Change α → JsonValue) (delta : Delta α) : List (String × JsonValue) :=
  listField ("added_" ++ plural) encode delta.added
    ++ listField ("removed_" ++ plural) encode delta.removed
    ++ listField ("changed_" ++ plural) encodeChange delta.changed
    ++ listField ("renamed_" ++ plural) encodeChange delta.renamed

def TableDiff.toJson (diff : TableDiff) : JsonValue :=
  .object ([("name", .string diff.name)]
    ++ optionalField "new_name" .string diff.newName
    ++ diff.columns.fields "columns" Column.toJson columnChangeJson
    ++ diff.indexes.fields "indexes" Index.toJson (Change.toJson Index.toJson)
    ++ diff.foreignKeys.fields "foreign_keys" ForeignKey.toJson
      (Change.toJson ForeignKey.toJson))

def SchemaDiff.toJson (diff : SchemaDiff) : JsonValue :=
  .object [
    ("added_tables", ofList Table.toJson diff.added),
    ("removed_tables", ofList Table.toJson diff.removed),
    ("changed_tables", ofList TableDiff.toJson diff.changed)]

end SchemaDelta
