import EntitySql.Catalog.Hierarchy
import EntitySql.Lowering.Call

/-!
# Sources

What a `FROM` clause reads from. A class name is a view of the class in a query, and the table of
the class in a statement that changes instances. A join through a relationship class reads the
links between the two sides.
-/

namespace EntitySql

/-- The tables that store a class or one of its subclasses, each once. -/
def Catalog.hierarchyTables (catalog : Catalog) (id : ClassId) :
    Except CatalogError (List String) := do
  let ids ← catalog.classAndDerived id
  return ((ids.filterMap catalog.classMap?).map (·.table)).eraseDups

/-- The direction in which a relationship connects two classes, if it connects them as asked. -/
def Catalog.joinDirection? (catalog : Catalog) (ends : RelationshipEnds) (near far : ClassId)
    (direction : JoinDirection) : Option JoinDirection :=
  let connects (source target : ClassId) : Bool :=
    catalog.isSubclassOf source ends.source && catalog.isSubclassOf target ends.target
  match direction with
  | .forward => if connects near far then some .forward else none
  | .backward => if connects far near then some .backward else none
  | .implied =>
    if connects near far then some .forward
    else if connects far near then some .backward
    else none

namespace Lowering

open Sql (Fragment bracketed qualified)

/-- The class map of a class that a statement names. -/
def usableMap (className : ClassName) : Lowering ClassMap := do
  match (← catalog).classMap className.classId with
  | .ok map => return map
  | .error (.classNotMapped name) => reject (.classWithoutStorage name)
  | .error error => fail (.catalog error)

/-- The properties that a query needs of a class. All are needed unless the view may be pruned,
which is only done in nested selects. -/
def neededProperties (options : Options) (scope : Scope) (usageOf : String → PropertyUsage)
    (className : ClassName) : PropertyUsage :=
  if options.pruneNestedViews && !scope.isRoot then usageOf className.effectiveAlias else .all

/-- Rejects the removal of instances from several tables at once. -/
def checkSingleTable (className : ClassName) : Lowering Unit := do
  let tables ← ofCatalog ((← catalog).hierarchyTables className.classId)
  if 1 < tables.length then
    reject (.deleteSpansTables className.fullName tables)

/-- The source for a class name. `usageOf` tells which properties are needed of an alias. -/
def className (usageOf : String → PropertyUsage) (c : ClassName) : Lowering Fragment := do
  let map ← usableMap c
  let env ← environment
  let scope ← scope
  match scope.kind with
  | .select =>
    if c.polymorphic && !map.polymorphic then
      reject (.polymorphicQuery c.fullName)
    return Fragment.ofText
      (← ofExcept (env.view c (neededProperties env.options scope usageOf c)))
  | .delete =>
    if c.polymorphic then
      checkSingleTable c
    return bracketed map.table
  | .insert | .update =>
    if c.polymorphic then
      reject (.polymorphicTarget scope.kind c.fullName)
    return bracketed map.table

/-- The direction in which a join follows a relationship. -/
def joinDirection (link : ClassName) (near far : ClassId) (direction : JoinDirection) :
    Lowering JoinDirection := do
  let catalog ← catalog
  let c ← ofCatalog (catalog.classDef link.classId)
  match c.relationship with
  | none => reject (.notRelationship link.name)
  | some ends =>
    match catalog.joinDirection? ends near far direction with
    | some direction => return direction
    | none => reject (.relationshipDirection link.name direction)

/-- A join through the links of a relationship class. -/
def relationshipJoin (usageOf : String → PropertyUsage) (near far : ClassName)
    (lhs rhs : Lowering Fragment) (link : ClassName) (direction : JoinDirection) :
    Lowering Fragment := do
  let direction ← joinDirection link near.classId far.classId direction
  let (nearEnd, farEnd) :=
    if direction = .backward then ("TargetECInstanceId", "SourceECInstanceId")
    else ("SourceECInstanceId", "TargetECInstanceId")
  let lhs ← lhs
  let links ← className usageOf link
  let rhs ← rhs
  let column (c : ClassName) (name : String) : String := qualified c.effectiveAlias name
  return lhs ++ " INNER JOIN " ++ links
    ++ (" ON " ++ column link nearEnd ++ "=" ++ column near "ECInstanceId")
    ++ " INNER JOIN " ++ rhs
    ++ (" ON " ++ column far "ECInstanceId" ++ "=" ++ column link farEnd)

/-- A join of two sources, of which the last classes are known if they end in one. -/
def join (usageOf : String → PropertyUsage) (near far : Option ClassName)
    (lhs rhs : Lowering Fragment) : JoinKind Operand → Lowering Fragment
  | .natural _ => reject .naturalJoin
  | .using .. => reject .joinUsing
  | .cross => do
    let lhs ← lhs
    let rhs ← rhs
    return lhs ++ " CROSS JOIN " ++ rhs
  | .on type condition => do
    let lhs ← lhs
    let rhs ← rhs
    let condition ← condition.single "JOIN condition"
    return lhs ++ (" " ++ type.sql ++ " ") ++ rhs ++ " ON " ++ condition
  | .relationship link direction =>
    match near, far with
    | some near, some far => relationshipJoin usageOf near far lhs rhs link direction
    | _, _ => reject .relationshipOperands

/-- A subquery with its alias. -/
def sourceSubquery (select : Lowering Unit) (aliasName : String) : Lowering Fragment := do
  return (← capture select).parenthesized ++ (" " ++ bracketed aliasName)

/-- What stands behind a source that may have an alias. -/
def aliasSuffix (aliasName : Option String) : String :=
  aliasName.elim "" fun aliasName => " " ++ bracketed aliasName

/-- A function whose results are rows. -/
def sourceFunction (c : FunctionCall Operand) (aliasName : Option String) : Lowering Fragment := do
  if !(← environment).options.experimental then
    reject (.experimentalFunction c.name)
  return (← call c .source).sql ++ aliasSuffix aliasName

/-- A common table. -/
def commonTable (name : String) (aliasName : Option String) : Fragment :=
  bracketed name ++ aliasSuffix aliasName

end Lowering

end EntitySql
