import EntitySql.Error
import EntitySql.Sql.Quoting
import EntitySql.Storage.ClassFilter
import EntitySql.Syntax.Reference

/-!
# Views of classes

A query reads a class through a view: the rows of every table that stores the class, or one of its
subclasses if they are included, under the column names of the class. `Catalog.view` finds the
arms of the view and `View.sql` writes them.
-/

namespace EntitySql

open Sql (bracketed qualified)

/-- A column of a view. Without a source it is `NULL`. -/
structure ViewColumn where
  source : Option ColumnSource
  name : String
deriving DecidableEq

/-- The rows that a view takes from one table. -/
structure ViewArm where
  table : Table
  columns : List ViewColumn
  /-- The condition on the rows, with the column that holds their class. -/
  filter : Option (String × ClassFilter)
deriving DecidableEq

/-- All rows of a class. -/
structure View where
  arms : List ViewArm
deriving DecidableEq

/-- The column with its name, read from a table. -/
def ViewColumn.sql (column : ViewColumn) (table : Table) : String :=
  let value :=
    match column.source with
    | some (.column name) => qualified table.name name
    | some (.classId id) => id.text
    | none => "NULL"
  value ++ " " ++ bracketed column.name

/-- The select that reads one table. -/
def ViewArm.sql (arm : ViewArm) : String :=
  let columns := ",".intercalate (arm.columns.map (·.sql arm.table))
  let condition :=
    match arm.filter with
    | some (column, filter) => " WHERE " ++ filter.sql (qualified arm.table.name column)
    | none => ""
  "SELECT " ++ columns ++ " FROM " ++ arm.table.qualifiedName ++ condition

/-- The view as a source with an alias. -/
def View.sql (view : View) (aliasName : String) : String :=
  "(" ++ " UNION ALL ".intercalate (view.arms.map (·.sql)) ++ ") " ++ bracketed aliasName

namespace Catalog

/-- The classes whose rows a class name stands for. -/
def classesOf (catalog : Catalog) (className : ClassName) :
    Except CatalogError (List ClassId) :=
  if className.polymorphic then catalog.classAndDerived className.classId
  else .ok [className.classId]

/-- A class map joins those found so far unless its table is taken. -/
def addTable (maps : List ClassMap) (map : ClassMap) : List ClassMap :=
  if maps.any (·.table = map.table) then maps else maps ++ [map]

/-- The tables in which some classes are stored, each by the first class map for it. -/
def storageMaps (catalog : Catalog) (ids : List ClassId) : List ClassMap :=
  (ids.filterMap catalog.classMap?).foldl addTable []

/-- The rows that a view takes from the table of a class map. A column is read from the place that
this class map names for it. -/
def viewArm (catalog : Catalog) (className : ClassName) (columns : List MappedColumn)
    (map : ClassMap) : Except CatalogError ViewArm := do
  let table ← catalog.table map.table
  let filter ← catalog.classFilter table className.classId className.polymorphic
  return {
    table
    columns := columns.map fun column =>
      ⟨(map.column? column.access).map (·.source), column.viewName⟩
    filter := do return (← table.classIdColumn, ← filter) }

/-- The columns of a view: those of the system properties, and of the properties in use. -/
def viewColumns (map : ClassMap) (usage : PropertyUsage) : List MappedColumn :=
  map.columns.filter fun column =>
    isSystemProperty column.access || usage.includes column.root

/-- The arms of the view of a class. -/
def viewArms (catalog : Catalog) (className : ClassName) (usage : PropertyUsage) :
    Except CatalogError (List ViewArm) := do
  let map ← catalog.classMap className.classId
  let ids ← catalog.classesOf className
  (catalog.storageMaps ids).mapM (catalog.viewArm className (viewColumns map usage))

/-- The view of a class with the properties in use. -/
def view (catalog : Catalog) (className : ClassName) (usage : PropertyUsage) :
    Except LoweringError View :=
  match catalog.viewArms className usage with
  | .error error => .error (.catalog error)
  | .ok [] => .error (.internal (.noStorage className.classId))
  | .ok arms => .ok ⟨arms⟩

end Catalog

end EntitySql
