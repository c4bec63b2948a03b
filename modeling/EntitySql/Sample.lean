import EntitySql.Catalog.Basic

/-!
# A sample schema

A small schema that has every kind of class: a hierarchy that is stored partly in one table and
partly in another, a class of its own, a class that can only be queried alone, two relationships of
which one is stored, and a struct.

    ts.Element (10)                    ts_Element
      ts.PhysicalElement (11)          ts_Element
        ts.SpatialElement (12)         ts_Element
        ts.Sensor (13)                 ts_Sensor
    ts.Widget (20)                     ts_Widget
    ts.Settings (21)                   ts_Settings
    ts.ElementOwnsChildElements (30)   not stored
    ts.ElementRefersToElements (31)    ts_ElementRefersToElements
    ts.Address (40)                    not stored
-/

namespace EntitySql.Sample

/-- A street and a position. -/
def address : StructType :=
  ⟨"ts.Address", [⟨"Street", .primitive .string⟩, ⟨"Pos", .primitive .point2d⟩]⟩

/-- An entity class of the schema `ts`. -/
def entity (id : ClassId) (name : String) (bases : List ClassId) (properties : List Property) :
    ClassDef :=
  { id, schema := "ts", name, kind := .entity, modifier := .none, bases, properties,
    relationship := none }

/-- A relationship class of the schema `ts` from elements to elements. -/
def relationship (id : ClassId) (name : String) (properties : List Property) : ClassDef :=
  { entity id name [] properties with kind := .relationship, relationship := some ⟨10, 10⟩ }

/-- The tables. -/
def tables : List Table :=
  [(Table.named "ts_Element").withClassId, .named "ts_Sensor", .named "ts_Widget",
    .named "ts_Settings", (Table.named "ts_ElementRefersToElements").withClassId]

/-- The classes. -/
def classes : List ClassEntry :=
  [⟨{ entity 10 "Element" []
        [⟨"Code", .primitive .string⟩, ⟨"Origin", .primitive .point3d⟩,
          ⟨"Parent", .navigation ⟨30, .backward⟩⟩] with modifier := .abstract },
      some "ts_Element", true⟩,
    ⟨entity 11 "PhysicalElement" [10] [], some "ts_Element", true⟩,
    ⟨entity 12 "SpatialElement" [11] [⟨"Location", .struct address⟩], some "ts_Element", true⟩,
    ⟨entity 13 "Sensor" [11] [⟨"Reading", .primitive .double⟩], some "ts_Sensor", true⟩,
    ⟨entity 20 "Widget" []
        [⟨"Name", .primitive .string⟩, ⟨"Size", .primitive .double⟩,
          ⟨"Position", .primitive .point2d⟩, ⟨"P", .primitive .point3d⟩,
          ⟨"Q", .primitive .point3d⟩, ⟨"Count", .primitive .long⟩, ⟨"Flag", .primitive .boolean⟩,
          ⟨"Created", .primitive .dateTime⟩, ⟨"Color", .primitive .integer⟩],
      some "ts_Widget", true⟩,
    ⟨entity 21 "Settings" [] [⟨"Key", .primitive .string⟩], some "ts_Settings", false⟩,
    ⟨relationship 30 "ElementOwnsChildElements" [], none, true⟩,
    ⟨relationship 31 "ElementRefersToElements" [⟨"Priority", .primitive .integer⟩],
      some "ts_ElementRefersToElements", true⟩,
    ⟨{ entity 40 "Address" [] [] with kind := .struct }, none, true⟩]

/-- The catalog of the sample schema. -/
def catalog : Catalog :=
  match Catalog.ofDefinition ⟨tables, classes⟩ with
  | .ok catalog => catalog
  | .error _ => .indexed [] [] []

end EntitySql.Sample
