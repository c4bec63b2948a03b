import EntitySql.Catalog.Basic
import EntitySql.Syntax.Literal

/-!
# Types along paths

The type of the value at a path below a class. A path leads from a property through the members of
structs to a single value, a coordinate of a point or one half of a navigation value.
-/

namespace EntitySql

/-- The type one step down a path. -/
def ValueType.step? (type : ValueType) (name : String) : Option ValueType :=
  match type with
  | .struct ⟨_, members⟩ =>
    (members.find? fun member => Text.sameName member.name name).map (·.type)
  | .primitive type => if type.isPoint then some (.primitive .double) else none
  | .navigation _ => some (.primitive .long)
  | _ => none

/-- The type at the end of a path that starts at a class. Below a system property every path ends at
that property. -/
def Catalog.typeAt? (catalog : Catalog) (id : ClassId) : List String → Option ValueType
  | [] => none
  | root :: rest => do
    if isSystemProperty root then
      return .primitive .long
    let property ← (catalog.findProperty id root).toOption
    rest.foldlM ValueType.step? property.type

/-- A name for the property at a path that starts at a class. -/
def Catalog.propertyName? (catalog : Catalog) (aliasName : String) (id : ClassId)
    (path : List String) : Option PropertyName := do
  return ⟨aliasName, path, .ofClass id, ← catalog.typeAt? id path⟩

end EntitySql
