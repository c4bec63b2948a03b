import EntitySql.Catalog.Hierarchy
import EntitySql.Syntax.Literal

/-!
# Filters on classes

Which rows of a table belong to a class is told by the column with the class of the row.
`Catalog.classFilter` finds the condition for one class, with or without its subclasses, and
`TypeFilter.ofEntries?` the condition for a list of classes. Subclasses are looked up in a table
that holds, for every class, the class itself and all its direct and indirect base classes.
-/

namespace EntitySql

/-- The table of classes and their base classes. -/
def hierarchyTable : String :=
  "[main].ec_cache_ClassHierarchy"

/-- A condition on the class of a row. -/
inductive ClassFilter where
  /-- The row belongs to this class itself. -/
  | exactly (id : ClassId)
  /-- The row belongs to this class or one of its subclasses. -/
  | within (id : ClassId)
deriving DecidableEq

/-- The condition, on a column with the class of the row. -/
def ClassFilter.sql (filter : ClassFilter) (column : String) : String :=
  match filter with
  | .exactly id => column ++ "=" ++ id.text
  | .within id =>
    column ++ " IN (SELECT ClassId FROM " ++ hierarchyTable ++ " WHERE BaseClassId=" ++ id.text
      ++ ")"

/-- The condition that the rows of a class meet in a table, if not all of its rows do. -/
def Catalog.classFilter (catalog : Catalog) (table : Table) (id : ClassId) (polymorphic : Bool) :
    Except CatalogError (Option ClassFilter) :=
  if table.classIdColumn.isNone then .ok none
  else if !polymorphic then
    .ok (if catalog.isSharedTable table.name then some (.exactly id) else none)
  else do
    let partition ← catalog.storagePartition table.name id
    return if partition.needsFilter then some (.within id) else none

/-! ## Lists of classes -/

/-- A condition on the class of a row: one of several hierarchies, or one of several classes. -/
structure TypeFilter where
  within : List ClassId
  exactly : List ClassId
deriving DecidableEq

namespace TypeFilter

/-- Class numbers with commas between them. -/
def idList (ids : List ClassId) : String :=
  ",".intercalate (ids.map (·.text))

/-- The condition behind the column with the class of the row. -/
def sql (filter : TypeFilter) : String :=
  if filter.within.isEmpty then "IN (" ++ idList filter.exactly ++ ")"
  else
    let alternatives :=
      if filter.exactly.isEmpty then "" else " OR ClassId IN (" ++ idList filter.exactly ++ ")"
    "IN (SELECT ClassId FROM " ++ hierarchyTable ++ " WHERE BaseClassId IN ("
      ++ idList filter.within ++ ")" ++ alternatives ++ ")"

/-- The condition for a list of classes, if the list is not empty. An entry counts once, and a
single class not at all if the list has one of its base classes together with all subclasses. -/
def ofEntries? (catalog : Catalog) (entries : List TypeEntry) : Option TypeFilter :=
  let (polymorphic, single) := entries.eraseDups.partition (·.polymorphic)
  let covered (entry : TypeEntry) : Bool :=
    polymorphic.any fun other => catalog.isSubclassOf entry.classId other.classId
  if entries.isEmpty then none
  else
    some
      { within := polymorphic.map (·.classId)
        exactly := (single.filter (!covered ·)).map (·.classId) }

end TypeFilter

end EntitySql
