import EntitySql.Codec.ValueType
import EntitySql.Syntax.Literal

/-!
# Literals, parameters and names in JSON
-/

namespace EntitySql

open Json (Dialect bool? double? int64? list? string? uint32? variant?)

namespace LiteralValue

/-- The JSON form of a constant. -/
def toJson : LiteralValue → Json
  | .null => .string "Null"
  | .boolean value => .variant "Boolean" (.bool value)
  | .integer value => .variant "Integer" (.int value.toInt)
  | .double value => .variant "Double" (.double value)
  | .string text => .variant "String" (.string text)
  | .date text => .variant "Date" (.string text)
  | .timestamp text => .variant "Timestamp" (.string text)

/-- Reads a constant. -/
def ofJson? (dialect : Dialect) : Json → Option LiteralValue :=
  variant? [("Null", dialect.unit? .null),
    ("Boolean", fun json => return .boolean (← bool? json)),
    ("Integer", fun json => return .integer (← int64? json)),
    ("Double", fun json => return .double (← double? json)),
    ("String", fun json => return .string (← string? json)),
    ("Date", fun json => return .date (← string? json)),
    ("Timestamp", fun json => return .timestamp (← string? json))]

end LiteralValue

namespace Literal

/-- The JSON form of a literal. -/
def toJson (l : Literal) : Json :=
  .object [("value", l.value.toJson), ("type_info", l.type.toJson),
    ("parenthesized", .bool l.parenthesized)]

/-- Reads a literal. -/
def ofJson? (dialect : Dialect) (json : Json) : Option Literal := do
  let fields ← json.fields? ["value", "type_info", "parenthesized"]
  return ⟨← fields.required "value" (LiteralValue.ofJson? dialect),
    ← fields.defaulted "type_info" .unknown (ValueType.ofJson? dialect),
    ← fields.defaulted "parenthesized" false bool?⟩

end Literal

namespace Parameter

/-- The JSON form of a parameter. -/
def toJson (p : Parameter) : Json :=
  .object [("name", .ofOption .string p.name), ("index", .int p.index.toNat),
    ("type_info", p.type.toJson)]

/-- Reads a parameter. -/
def ofJson? (dialect : Dialect) (json : Json) : Option Parameter := do
  let fields ← json.fields? ["name", "index", "type_info"]
  return ⟨← fields.optional "name" string?, ← fields.required "index" uint32?,
    ← fields.defaulted "type_info" .unknown (ValueType.ofJson? dialect)⟩

end Parameter

namespace PropertyTarget

/-- The JSON form of what a property name refers to. -/
def toJson : PropertyTarget → Json
  | .ofClass id => .variant "Class" (.object [("class_id", id.toJson)])
  | .derived columns => .variant "Derived" (.object [("columns", .strings columns)])

/-- Reads what a property name refers to. -/
def ofJson? (dialect : Dialect) : Json → Option PropertyTarget :=
  variant? [("Class", fun json => do
      let fields ← dialect.caseFields? ["class_id"] json
      return .ofClass (← fields.required "class_id" ClassId.ofJson?)),
    ("Derived", fun json => do
      let fields ← dialect.caseFields? ["columns"] json
      return .derived (← fields.required "columns" (list? string?)))]

end PropertyTarget

namespace PropertyName

/-- The JSON form of a property name. -/
def toJson (p : PropertyName) : Json :=
  .object [("class_alias", .string p.aliasName), ("path", .strings p.path),
    ("target", p.target.toJson), ("type_info", p.type.toJson)]

/-- Reads a property name. -/
def ofJson? (dialect : Dialect) (json : Json) : Option PropertyName := do
  let fields ← json.fields? ["class_alias", "path", "target", "type_info"]
  return ⟨← fields.required "class_alias" string?, ← fields.required "path" (list? string?),
    ← fields.required "target" (PropertyTarget.ofJson? dialect),
    ← fields.required "type_info" (ValueType.ofJson? dialect)⟩

end PropertyName

namespace TypeEntry

/-- The JSON form of a class of a list of classes. -/
def toJson (entry : TypeEntry) : Json :=
  .object [("class_id", entry.classId.toJson), ("polymorphic", .bool entry.polymorphic)]

/-- Reads a class of a list of classes. -/
def ofJson? (json : Json) : Option TypeEntry := do
  let fields ← json.fields? ["class_id", "polymorphic"]
  return ⟨← fields.required "class_id" ClassId.ofJson?, ← fields.required "polymorphic" bool?⟩

/-- A list of classes. -/
def listToJson (entries : List TypeEntry) : Json :=
  .object [("entries", .array (entries.map toJson))]

/-- A list of classes. -/
def listOfJson? (json : Json) : Option (List TypeEntry) := do
  let fields ← json.fields? ["entries"]
  fields.required "entries" (list? ofJson?)

end TypeEntry

namespace ClassName

/-- The JSON form of a class name. -/
def toJson (c : ClassName) : Json :=
  .object [("class_id", c.classId.toJson), ("schema", .string c.schema), ("name", .string c.name),
    ("alias", .ofOption .string c.aliasName), ("polymorphic", .bool c.polymorphic)]

/-- Reads a class name. -/
def ofJson? (json : Json) : Option ClassName := do
  let fields ← json.fields? ["class_id", "schema", "name", "alias", "polymorphic"]
  return ⟨← fields.required "class_id" ClassId.ofJson?, ← fields.required "schema" string?,
    ← fields.required "name" string?, ← fields.optional "alias" string?,
    ← fields.defaulted "polymorphic" true bool?⟩

end ClassName

end EntitySql
