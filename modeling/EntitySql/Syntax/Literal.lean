import EntitySql.Decimal.Double
import EntitySql.Schema.Class

/-!
# Literals, parameters and names

The parts of a statement that contain no other parts.
-/

namespace EntitySql

/-- A constant in a statement. -/
inductive LiteralValue where
  | null
  | boolean (value : Bool)
  | integer (value : Int64)
  | double (value : Decimal.Double)
  | string (text : String)
  | date (text : String)
  | timestamp (text : String)
deriving DecidableEq

/-- The type that a constant has by itself. -/
def LiteralValue.type : LiteralValue → ValueType
  | .null => .null
  | .boolean _ => .primitive .boolean
  | .integer _ => .primitive .long
  | .double _ => .primitive .double
  | .string _ => .primitive .string
  | .date _ | .timestamp _ => .primitive .dateTime

/-- A constant with its type, and whether it stands in parentheses. -/
structure Literal where
  value : LiteralValue
  /-- The type; that of `NULL` is the one its surroundings ask for. -/
  type : ValueType
  parenthesized : Bool

/-- A constant with the type it has by itself. -/
def Literal.ofValue (value : LiteralValue) : Literal :=
  ⟨value, value.type, false⟩

/-- A placeholder for a value that is supplied when the statement runs. -/
structure Parameter where
  name : Option String
  /-- The position among all parameters of the statement. -/
  index : UInt32
  type : ValueType

/-- What a property name refers to. -/
inductive PropertyTarget where
  /-- A property of a class. -/
  | ofClass (id : ClassId)
  /-- Columns of a subquery or common table. -/
  | derived (columns : List String)
deriving DecidableEq

/-- A reference to a property through the alias of a class or subquery. -/
structure PropertyName where
  aliasName : String
  path : List String
  target : PropertyTarget
  type : ValueType

namespace PropertyName

/-- The names of the path with dots between them. -/
def access (property : PropertyName) : String :=
  ".".intercalate property.path

/-- Whether the path is the name of a system property. -/
def isSystem (property : PropertyName) : Bool :=
  isSystemProperty property.access

end PropertyName

/-- A class in a list of classes, alone or with its subclasses. -/
structure TypeEntry where
  classId : ClassId
  polymorphic : Bool
deriving DecidableEq

/-- A class as it is named in a statement. -/
structure ClassName where
  classId : ClassId
  schema : String
  name : String
  aliasName : Option String
  /-- Whether subclasses are included; `ONLY` excludes them. -/
  polymorphic : Bool
deriving DecidableEq

namespace ClassName

/-- The name that qualifies references to the class. -/
def effectiveAlias (c : ClassName) : String :=
  c.aliasName.getD c.name

/-- The name of the class behind the name of its schema. -/
def fullName (c : ClassName) : String :=
  c.schema ++ "." ++ c.name

end ClassName

end EntitySql
