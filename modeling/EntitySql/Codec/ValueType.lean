import EntitySql.Codec.Tags

/-!
# Types of values in JSON

A type may contain types, in the members of a struct. Reading carries a bound on how deep they may
be nested, which is the depth of the JSON value and so never too small.
-/

namespace EntitySql

open Json (Dialect list? string? variant?)

namespace ClassId

/-- The number of a class. -/
def toJson (id : ClassId) : Json :=
  .int id.value.toNat

/-- The class with the number that the value holds. -/
def ofJson? (json : Json) : Option ClassId :=
  json.uint64?.map .mk

end ClassId

/-! ## Writing -/

mutual

/-- The JSON form of a type. -/
def ValueType.toJson : ValueType → Json
  | .unknown => .string "Unknown"
  | .null => .string "Null"
  | .primitive type => .variant "Primitive" (.tag type)
  | .struct type => .variant "Struct" (StructType.toJson type)
  | .navigation relationship =>
    .variant "Navigation" (.object [("relationship_class", relationship.toJson)])
  | .primitiveArray type => .variant "PrimitiveArray" (.tag type)
  | .structArray type => .variant "StructArray" (StructType.toJson type)

/-- The JSON form of a struct. -/
def StructType.toJson : StructType → Json
  | ⟨name, members⟩ =>
    .object [("name", .string name), ("members", .array (structMembersJson members))]

/-- The JSON form of some members of a struct. -/
def structMembersJson : List StructMember → List Json
  | [] => []
  | ⟨name, type⟩ :: members =>
    .object [("name", .string name), ("type_info", ValueType.toJson type)]
      :: structMembersJson members

end

/-! ## Reading -/

/-- A member of a struct, given how types are read. -/
def StructMember.ofJsonUsing? (type : Json → Option ValueType) (json : Json) :
    Option StructMember := do
  let fields ← json.fields? ["name", "type_info"]
  return ⟨← fields.required "name" string?, ← fields.required "type_info" type⟩

/-- A struct, given how types are read. -/
def StructType.ofJsonUsing? (type : Json → Option ValueType) (json : Json) :
    Option StructType := do
  let fields ← json.fields? ["name", "members"]
  return ⟨← fields.required "name" string?,
    ← fields.required "members" (list? (StructMember.ofJsonUsing? type))⟩

namespace ValueType

/-- The cases of a type, given how types inside it are read. -/
def cases (dialect : Dialect) (type : Json → Option ValueType) :
    List (String × (Json → Option ValueType)) :=
  [("Unknown", dialect.unit? .unknown),
    ("Null", dialect.unit? .null),
    ("Primitive", fun json => return .primitive (← dialect.tag? json)),
    ("Struct", fun json => return .struct (← StructType.ofJsonUsing? type json)),
    ("Navigation", fun json => do
      let fields ← dialect.caseFields? ["relationship_class"] json
      return .navigation (← fields.required "relationship_class" ClassId.ofJson?)),
    ("PrimitiveArray", fun json => return .primitiveArray (← dialect.tag? json)),
    ("StructArray", fun json => return .structArray (← StructType.ofJsonUsing? type json))]

/-- A type, with types nested less than `bound` deep. -/
def ofJsonWithin? (dialect : Dialect) : (bound : Nat) → Json → Option ValueType
  | 0 => fun _ => none
  | bound + 1 => variant? (cases dialect (ofJsonWithin? dialect bound))

/-- A type. -/
def ofJson? (dialect : Dialect) (json : Json) : Option ValueType :=
  ofJsonWithin? dialect (json.depth + 1) json

end ValueType

/-- A struct. -/
def StructType.ofJson? (dialect : Dialect) (json : Json) : Option StructType :=
  StructType.ofJsonUsing? (ValueType.ofJson? dialect) json

end EntitySql
