import EntitySql.Lowering.Operand

/-!
# Navigation values

A navigation value is made from the number of an instance and that of a relationship class, which
is the one that the navigation property declares if no other is given.
-/

namespace EntitySql

/-- Whether an expression is a number that identifies nothing, as can be seen without running it. -/
def Exp.isNonPositive : Exp → Bool
  | .sign .minus _ _ => true
  | .literal ⟨.integer value, _, _⟩ => value ≤ 0
  | .literal ⟨.double value, _, _⟩ => value.isNonPositive
  | _ => false

namespace Lowering

open Sql (Columns Fragment bracketed)

/-- The relationship class that a navigation property declares. -/
def declaredRelationship? (catalog : Catalog) (p : PropertyName) : Option ClassId :=
  match p.target, p.path, p.type with
  | .ofClass id, [name], _ => do
    let property ← (catalog.findProperty id name).toOption
    return (← property.navigation?).relationship
  | .derived _, _, .navigation relationship => some relationship
  | _, _, _ => none

/-- The relationship class that a property declares, which must be a navigation property. -/
def declaredRelationship (p : PropertyName) : Lowering ClassId := do
  match declaredRelationship? (← catalog) p with
  | some relationship => return relationship
  | none => reject (.notNavigation p.access)

/-- Rejects a number that identifies nothing. -/
def checkPositive (exp : Exp) (role : String) : Lowering Unit :=
  if exp.isNonPositive then reject (.navigationId role) else return ()

/-- The columns of a navigation value: the instance and the relationship class. -/
def navigation (value : NavigationValue Operand) : Lowering Columns := do
  let declared ← declaredRelationship value.property
  checkPositive value.id.exp "ECInstanceId"
  if let some relationship := value.relationship then
    checkPositive relationship.exp "RelECClassId"
  if let .property _ := value.id.exp then
    if !(← scope).hasFrom then
      reject (.navigationWithoutFrom value.property.access)
  let id ← value.id.single "Navigation id"
  let relationship ← Operand.single? value.relationship "Navigation relationship class id"
  return [id, relationship.getD declared.text]

/-- Columns with numbered names. -/
def numberedColumns (aliasName : String) (columns : Columns) : Columns :=
  columns.zipIdx.map fun (column, i) =>
    column ++ (" " ++ bracketed (aliasName ++ "_" ++ toString i))

end Lowering

end EntitySql
