import EntitySql.Schema.ValueType
import EntitySql.Text.Ascii

/-!
# Classes

A class has a name in a schema, base classes, and properties. A relationship class also has two
ends. Properties are found by name without regard to letter case.
-/

namespace EntitySql

/-- What a class is for. -/
inductive ClassKind where
  | entity
  | relationship
  | struct
  | customAttribute
  | mixin
deriving DecidableEq

/-- Restrictions on how a class may be used. -/
inductive ClassModifier where
  | none
  | abstract
  | sealed
deriving DecidableEq

/-- Which end of its relationship a navigation property stands at. -/
inductive NavigationDirection where
  | forward
  | backward
deriving DecidableEq

/-- The classes at the two ends of a relationship. -/
structure RelationshipEnds where
  source : ClassId
  target : ClassId
deriving DecidableEq

/-- The relationship that a navigation property points through. -/
structure Navigation where
  relationship : ClassId
  direction : NavigationDirection
deriving DecidableEq

/-- What a property holds. -/
inductive PropertyKind where
  | primitive (type : PrimitiveType)
  | struct (type : StructType)
  | primitiveArray (type : PrimitiveType)
  | structArray (type : StructType)
  | navigation (navigation : Navigation)

/-- A property of a class. -/
structure Property where
  name : String
  kind : PropertyKind

namespace Property

/-- The navigation of a navigation property. -/
def navigation? (property : Property) : Option Navigation :=
  match property.kind with
  | .navigation navigation => some navigation
  | _ => none

/-- The type of the values of a property. -/
def type (property : Property) : ValueType :=
  match property.kind with
  | .primitive type => .primitive type
  | .struct type => .struct type
  | .primitiveArray type => .primitiveArray type
  | .structArray type => .structArray type
  | .navigation navigation => .navigation navigation.relationship

end Property

/-- The property with a name, the first one if there are several. -/
def findProperty? (name : String) (properties : List Property) : Option Property :=
  properties.find? fun property => Text.sameName property.name name

/-- A class of the schema. -/
structure ClassDef where
  id : ClassId
  schema : String
  name : String
  kind : ClassKind
  modifier : ClassModifier
  /-- The direct base classes. -/
  bases : List ClassId
  /-- The properties that the class itself declares. -/
  properties : List Property
  relationship : Option RelationshipEnds

namespace ClassDef

/-- The name of the class behind the name of its schema. -/
def fullName (c : ClassDef) : String :=
  c.schema ++ "." ++ c.name

/-- Whether instances are links between other instances. -/
def isRelationship (c : ClassDef) : Bool :=
  c.kind = .relationship

end ClassDef

/-- The properties that every class has without declaring them, and every relationship class. -/
def systemProperties : List String :=
  ["ECInstanceId", "ECClassId", "SourceECInstanceId", "SourceECClassId", "TargetECInstanceId",
    "TargetECClassId"]

/-- Whether a name, letter for letter, is that of a system property. -/
def isSystemProperty (name : String) : Bool :=
  systemProperties.contains name

end EntitySql
