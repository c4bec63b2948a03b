import EntitySql.Catalog.Basic

/-!
# Class hierarchies

Downwards, `classAndDerived` lists a class with all its subclasses; upwards, `isSubclassOf` follows
base classes. `storagePartition` says which of the classes stored in a table belong to a hierarchy.
-/

namespace EntitySql.Catalog

/-- The direct subclasses of a class, in the order of their numbers, once for each time they name
it as a base. -/
def subclasses (catalog : Catalog) (id : ClassId) : List ClassId :=
  catalog.derived.get id

/-- The direct subclasses of a class that is defined. -/
def derivedClasses (catalog : Catalog) (id : ClassId) : Except CatalogError (List ClassId) := do
  let _ ← catalog.classDef id
  return catalog.subclasses id

/-- The first list, followed by the members of the second that it does not hold yet. -/
def addUnseen (seen : List ClassId) (ids : List ClassId) : List ClassId :=
  ids.foldl (fun seen id => if id ∈ seen then seen else seen ++ [id]) seen

/-- The classes reachable downwards: `seen` are those found so far, and the subclasses of all but
the first `visited` of them are still to be added. Each step of `bound` visits one class. -/
def reachable (catalog : Catalog) : (bound visited : Nat) → (seen : List ClassId) → List ClassId
  | 0, _, seen => seen
  | bound + 1, visited, seen =>
    match seen[visited]? with
    | none => seen
    | some id => reachable catalog bound (visited + 1) (addUnseen seen (catalog.subclasses id))

/-- A class with all its direct and indirect subclasses, each once, the class itself first. -/
def classAndDerived (catalog : Catalog) (id : ClassId) : Except CatalogError (List ClassId) := do
  let _ ← catalog.classDef id
  return catalog.reachable catalog.classes.length 0 [id]

/-- Whether a walk of bounded length leads from a class up to a base. -/
def isSubclassWithin (catalog : Catalog) (base : ClassId) : Nat → ClassId → Bool
  | 0, id => id = base
  | bound + 1, id =>
    id = base
      || match findClass? catalog.classes id with
        | some c => c.bases.any (isSubclassWithin catalog base bound)
        | none => false

/-- Whether a class is the base or one of its direct or indirect subclasses. -/
def isSubclassOf (catalog : Catalog) (id base : ClassId) : Bool :=
  catalog.isSubclassWithin base catalog.classes.length id

/-- How a table stores the classes of a hierarchy. -/
structure StoragePartition where
  table : String
  /-- The classes of the hierarchy that are stored in the table. -/
  classIds : List ClassId
  /-- Whether the table also stores classes from outside the hierarchy. -/
  needsFilter : Bool

/-- How a table stores a class and its subclasses. -/
def storagePartition (catalog : Catalog) (table : String) (id : ClassId) :
    Except CatalogError StoragePartition := do
  let hierarchy ← catalog.classAndDerived id
  let stored := catalog.classesInTable table
  return ⟨table, stored.filter (· ∈ hierarchy), stored.any (· ∉ hierarchy)⟩

end EntitySql.Catalog
