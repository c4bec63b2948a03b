import EntitySql.Schema.Class
import EntitySql.Text.Path

/-!
# Tables and the columns of classes

A class map says in which table the instances of a class are stored, and for each of its properties
which columns hold the value. Columns are addressed by a path of names with dots between them.
-/

namespace EntitySql

/-- A table of the database. -/
structure Table where
  name : String
  /-- The attached database that the table is in. -/
  space : String
  /-- The column with the number of the instance. -/
  idColumn : String
  /-- The column with the class of the instance, needed if several classes share the table. -/
  classIdColumn : Option String
deriving DecidableEq

namespace Table

/-- The space that tables are in if nothing else is said. -/
def defaultSpace : String := "main"

/-- The name of the column with the number of the instance if nothing else is said. -/
def defaultIdColumn : String := "Id"

/-- A table with the usual columns. -/
def named (name : String) : Table :=
  ⟨name, defaultSpace, defaultIdColumn, none⟩

/-- The table with a column for the class, of the usual name. -/
def withClassId (table : Table) : Table :=
  { table with classIdColumn := some "ECClassId" }

/-- The name of the table behind its space, each in brackets. -/
def qualifiedName (table : Table) : String :=
  "[" ++ table.space ++ "].[" ++ table.name ++ "]"

end Table

/-- Where the value of a column comes from. -/
inductive ColumnSource where
  /-- A column of the table. -/
  | column (name : String)
  /-- The class itself, for a table without a column for it. -/
  | classId (id : ClassId)
deriving DecidableEq

/-- A column that holds a property or a part of one. -/
structure MappedColumn where
  /-- The path of the property, down to the coordinate of a point. -/
  access : String
  /-- The name under which queries see the column. -/
  viewName : String
  source : ColumnSource
deriving DecidableEq

namespace MappedColumn

/-- Whether the column belongs to the property at a path: it is that property, or lies below it, so
that behind the path there is a dot. The texts are measured in bytes: there is no answer if a byte
is read behind the end, or a text is cut inside of a character. -/
def belongsTo? (column : MappedColumn) (path : String) : Option Bool := do
  let size := path.utf8ByteSize
  if Text.sameName column.access path then return true
  if column.access.utf8ByteSize ≤ size then return false
  if (← column.access.toByteArray[size]?) ≠ '.'.toUInt8 then return false
  let place ← column.access.pos? ⟨size⟩
  return Text.sameName (column.access.sliceTo place).copy path

/-- The answer to whether the column belongs to the property at a path; there always is one. -/
def belongsTo (column : MappedColumn) (path : String) : Bool :=
  (column.belongsTo? path).getD false

/-- The property at the root of the path. -/
def root (column : MappedColumn) : String :=
  Text.rootName column.access

end MappedColumn

/-- How the instances of a class are stored. -/
structure ClassMap where
  classId : ClassId
  table : String
  /-- Whether queries may ask for the class together with its subclasses. -/
  polymorphic : Bool
  /-- The columns, those of the system properties first. -/
  columns : List MappedColumn
deriving DecidableEq

namespace ClassMap

/-- The columns of the property at a path. -/
def property (map : ClassMap) (path : String) : List MappedColumn :=
  map.columns.filter (·.belongsTo path)

/-- The column with exactly this path. -/
def column? (map : ClassMap) (access : String) : Option MappedColumn :=
  map.columns.find? fun column => Text.sameName column.access access

end ClassMap

end EntitySql
