import EntitySql.Codec.ValueType
import EntitySql.Schema.Definition

/-!
# Schemas in JSON

Properties, classes, tables and class maps, and the definition of a catalog. In a definition the
fields of a class stand beside those that say how it is stored.
-/

namespace EntitySql

open Json (Dialect bool? list? option? string? variant?)

namespace Navigation

/-- The JSON form of a navigation. -/
def toJson (navigation : Navigation) : Json :=
  .object [("relationship_class", navigation.relationship.toJson),
    ("direction", .tag navigation.direction)]

/-- Reads a navigation. -/
def ofJson? (dialect : Dialect) (json : Json) : Option Navigation := do
  let fields ← json.fields? ["relationship_class", "direction"]
  return ⟨← fields.required "relationship_class" ClassId.ofJson?,
    ← fields.required "direction" dialect.tag?⟩

end Navigation

namespace PropertyKind

/-- The JSON form of what a property holds. -/
def toJson : PropertyKind → Json
  | .primitive type => .variant "Primitive" (.tag type)
  | .struct type => .variant "Struct" type.toJson
  | .primitiveArray type => .variant "PrimitiveArray" (.tag type)
  | .structArray type => .variant "StructArray" type.toJson
  | .navigation n => .variant "Navigation" n.toJson

/-- Reads what a property holds. -/
def ofJson? (dialect : Dialect) : Json → Option PropertyKind :=
  variant? [("Primitive", fun json => return .primitive (← dialect.tag? json)),
    ("Struct", fun json => return .struct (← StructType.ofJson? dialect json)),
    ("PrimitiveArray", fun json => return .primitiveArray (← dialect.tag? json)),
    ("StructArray", fun json => return .structArray (← StructType.ofJson? dialect json)),
    ("Navigation", fun json => return .navigation (← Navigation.ofJson? dialect json))]

end PropertyKind

namespace Property

/-- The JSON form of a property. -/
def toJson (property : Property) : Json :=
  .object [("name", .string property.name), ("kind", property.kind.toJson)]

/-- Reads a property. -/
def ofJson? (dialect : Dialect) (json : Json) : Option Property := do
  let fields ← json.fields? ["name", "kind"]
  return ⟨← fields.required "name" string?,
    ← fields.required "kind" (PropertyKind.ofJson? dialect)⟩

end Property

namespace RelationshipEnds

/-- The JSON form of the ends of a relationship. -/
def toJson (ends : RelationshipEnds) : Json :=
  .object [("source", ends.source.toJson), ("target", ends.target.toJson)]

/-- Reads the ends of a relationship. -/
def ofJson? (json : Json) : Option RelationshipEnds := do
  let fields ← json.fields? ["source", "target"]
  return ⟨← fields.required "source" ClassId.ofJson?, ← fields.required "target" ClassId.ofJson?⟩

end RelationshipEnds

namespace ClassDef

/-- The names of the fields of a class. -/
def fieldNames : List String :=
  ["id", "schema", "name", "kind", "modifier", "base_classes", "properties", "relationship"]

/-- The fields of a class. -/
def members (c : ClassDef) : List (String × Json) :=
  [("id", c.id.toJson), ("schema", .string c.schema), ("name", .string c.name),
    ("kind", .tag c.kind), ("modifier", .tag c.modifier),
    ("base_classes", .array (c.bases.map ClassId.toJson)),
    ("properties", .array (c.properties.map Property.toJson)),
    ("relationship", .ofOption RelationshipEnds.toJson c.relationship)]

/-- The JSON form of a class. -/
def toJson (c : ClassDef) : Json :=
  .object c.members

/-- A class from its fields. -/
def ofFields? (dialect : Dialect) (fields : Json.Fields) : Option ClassDef := do
  return {
    id := ← fields.required "id" ClassId.ofJson?
    schema := ← fields.required "schema" string?
    name := ← fields.required "name" string?
    kind := ← fields.required "kind" dialect.tag?
    modifier := ← fields.defaulted "modifier" .none dialect.tag?
    bases := ← fields.defaulted "base_classes" [] (list? ClassId.ofJson?)
    properties := ← fields.defaulted "properties" [] (list? (Property.ofJson? dialect))
    relationship := ← fields.defaulted "relationship" none (option? RelationshipEnds.ofJson?) }

/-- Reads a class. -/
def ofJson? (dialect : Dialect) (json : Json) : Option ClassDef := do
  ofFields? dialect (← json.fields? fieldNames)

end ClassDef

/-! ## Storage -/

namespace Table

/-- The JSON form of a table. -/
def toJson (table : Table) : Json :=
  .object [("name", .string table.name), ("table_space", .string table.space),
    ("id_column", .string table.idColumn),
    ("class_id_column", .ofOption .string table.classIdColumn)]

/-- Reads a table. -/
def ofJson? (json : Json) : Option Table := do
  let fields ← json.fields? ["name", "table_space", "id_column", "class_id_column"]
  return ⟨← fields.required "name" string?,
    ← fields.defaulted "table_space" defaultSpace string?,
    ← fields.defaulted "id_column" defaultIdColumn string?,
    ← fields.defaulted "class_id_column" none (option? string?)⟩

end Table

namespace ColumnSource

/-- The JSON form of where a column comes from. -/
def toJson : ColumnSource → Json
  | .column name => .variant "Column" (.string name)
  | .classId id => .variant "ClassIdConstant" id.toJson

/-- Reads where a column comes from. -/
def ofJson? : Json → Option ColumnSource :=
  variant? [("Column", fun json => return .column (← string? json)),
    ("ClassIdConstant", fun json => return .classId (← ClassId.ofJson? json))]

end ColumnSource

namespace MappedColumn

/-- The JSON form of a column of a class map. -/
def toJson (column : MappedColumn) : Json :=
  .object [("access_string", .string column.access), ("view_name", .string column.viewName),
    ("source", column.source.toJson)]

/-- Reads a column of a class map. -/
def ofJson? (json : Json) : Option MappedColumn := do
  let fields ← json.fields? ["access_string", "view_name", "source"]
  return ⟨← fields.required "access_string" string?, ← fields.required "view_name" string?,
    ← fields.required "source" ColumnSource.ofJson?⟩

end MappedColumn

namespace ClassMap

/-- The JSON form of a class map. -/
def toJson (map : ClassMap) : Json :=
  .object [("class_id", map.classId.toJson), ("table", .string map.table),
    ("allows_polymorphic_queries", .bool map.polymorphic),
    ("columns", .array (map.columns.map MappedColumn.toJson))]

/-- Reads a class map. -/
def ofJson? (json : Json) : Option ClassMap := do
  let fields ← json.fields? ["class_id", "table", "allows_polymorphic_queries", "columns"]
  return ⟨← fields.required "class_id" ClassId.ofJson?, ← fields.required "table" string?,
    ← fields.defaulted "allows_polymorphic_queries" true bool?,
    ← fields.required "columns" (list? MappedColumn.ofJson?)⟩

end ClassMap

/-! ## Definitions -/

namespace ClassEntry

/-- The JSON form of a class of a definition. -/
def toJson (entry : ClassEntry) : Json :=
  .object (entry.definition.members ++ [("table", .ofOption .string entry.table),
    ("allows_polymorphic_queries", .bool entry.polymorphic)])

/-- Reads a class of a definition. It must be readable as a whole, also in members that no field
asks for. -/
def ofJson? (json : Json) : Option ClassEntry := do
  guard json.isReadable
  let fields ← json.members? (ClassDef.fieldNames ++ ["table", "allows_polymorphic_queries"])
  return ⟨← ClassDef.ofFields? .embedded fields, ← fields.defaulted "table" none (option? string?),
    ← fields.defaulted "allows_polymorphic_queries" true bool?⟩

end ClassEntry

namespace CatalogDefinition

/-- The JSON form of the definition of a catalog. -/
def toJson (definition : CatalogDefinition) : Json :=
  .object [("tables", .array (definition.tables.map Table.toJson)),
    ("classes", .array (definition.classes.map ClassEntry.toJson))]

/-- Reads the definition of a catalog. -/
def ofJson? (json : Json) : Option CatalogDefinition := do
  let fields ← json.fields? ["tables", "classes"]
  return ⟨← fields.defaulted "tables" [] (list? Table.ofJson?),
    ← fields.defaulted "classes" [] (list? ClassEntry.ofJson?)⟩

end CatalogDefinition

end EntitySql
