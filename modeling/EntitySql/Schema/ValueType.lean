import EntitySql.Text.Escaped

/-!
# Types of values

A value of a class property occupies one or more columns of a table. How many follows from its type
alone: points have one column per coordinate, structs the columns of their members, and a navigation
value the columns of the instance and of the relationship class it points through.
-/

namespace EntitySql

/-- The number of a class in the schema. -/
structure ClassId where
  value : UInt64
deriving DecidableEq, Inhabited

namespace ClassId

/-- The decimal digits of the number. -/
def text (id : ClassId) : String :=
  toString id.value.toNat

instance (n : Nat) : OfNat ClassId n := ⟨⟨UInt64.ofNat n⟩⟩

end ClassId

/-- The types of single values. -/
inductive PrimitiveType where
  | binary
  | boolean
  | dateTime
  | double
  | integer
  | long
  | point2d
  | point3d
  | string
  | geometry
deriving DecidableEq

namespace PrimitiveType

/-- The name of the type in schemas and messages. -/
def name : PrimitiveType → String
  | .binary => "Binary"
  | .boolean => "Boolean"
  | .dateTime => "DateTime"
  | .double => "Double"
  | .integer => "Integer"
  | .long => "Long"
  | .point2d => "Point2d"
  | .point3d => "Point3d"
  | .string => "String"
  | .geometry => "IGeometry"

/-- The names of the coordinates of a point; empty for all other types. -/
def coordinates : PrimitiveType → List String
  | .point2d => ["X", "Y"]
  | .point3d => ["X", "Y", "Z"]
  | _ => []

/-- Whether values are points. -/
def isPoint (type : PrimitiveType) : Bool :=
  !type.coordinates.isEmpty

/-- The number of columns that a value occupies. -/
def columnCount : PrimitiveType → Nat
  | .point2d => 2
  | .point3d => 3
  | _ => 1

end PrimitiveType

mutual

/-- The type of a value. -/
inductive ValueType where
  /-- Not known, as for a parameter without a declared type. -/
  | unknown
  /-- The type of `NULL` when nothing else is known. -/
  | null
  | primitive (type : PrimitiveType)
  | struct (type : StructType)
  /-- An instance together with the relationship class that leads to it. -/
  | navigation (relationship : ClassId)
  | primitiveArray (type : PrimitiveType)
  | structArray (type : StructType)

/-- A struct: a name and members in order. -/
structure StructType where
  name : String
  members : List StructMember

/-- One member of a struct. -/
structure StructMember where
  name : String
  type : ValueType

end

instance : Inhabited ValueType := ⟨.unknown⟩

namespace ValueType

/-- The primitive type, if the type is one. -/
def primitive? : ValueType → Option PrimitiveType
  | .primitive type => some type
  | _ => none

/-- Whether this is the type of a bare `NULL`. -/
def isNull : ValueType → Bool
  | .null => true
  | _ => false

mutual

/-- The number of columns that a value occupies. -/
def columnCount : ValueType → Nat
  | .primitive type => type.columnCount
  | .struct type => structColumnCount type
  | .navigation _ => 2
  | .unknown | .null | .primitiveArray _ | .structArray _ => 1

/-- The number of columns of all members together. -/
def structColumnCount : StructType → Nat
  | ⟨_, members⟩ => memberColumnCount members

/-- The sum of the column counts of some members. -/
def memberColumnCount : List StructMember → Nat
  | [] => 0
  | ⟨_, type⟩ :: members => columnCount type + memberColumnCount members

end

mutual

/-- The type as it is shown in messages. -/
def shown : ValueType → String
  | .unknown => "Unknown"
  | .null => "Null"
  | .primitive type => "Primitive(" ++ type.name ++ ")"
  | .struct type => "Struct(" ++ shownStruct type ++ ")"
  | .navigation relationship =>
    "Navigation \x7b relationship_class: ClassId(" ++ relationship.text ++ ") \x7d"
  | .primitiveArray type => "PrimitiveArray(" ++ type.name ++ ")"
  | .structArray type => "StructArray(" ++ shownStruct type ++ ")"

/-- A struct as it is shown in messages. -/
def shownStruct : StructType → String
  | ⟨name, members⟩ =>
    "StructType \x7b name: " ++ Text.escaped name ++ ", members: ["
      ++ ", ".intercalate (shownMembers members) ++ "] \x7d"

/-- The members of a struct as they are shown in messages. -/
def shownMembers : List StructMember → List String
  | [] => []
  | ⟨name, type⟩ :: members =>
    ("StructMember \x7b name: " ++ Text.escaped name ++ ", type_info: " ++ shown type ++ " \x7d")
      :: shownMembers members

end

end ValueType

/-- The number of columns that a value of a struct occupies. -/
def StructType.columnCount (type : StructType) : Nat :=
  ValueType.structColumnCount type

end EntitySql
