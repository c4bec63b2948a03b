import EntitySql.Storage.View

/-!
# Databases and the rows of views

A database has rows in tables and a table of classes and their base classes. An arm of a view reads
the rows of its table that pass its condition, and the view reads the rows of all its arms.
-/

namespace EntitySql

/-! ## Databases -/

/-- A value in a database. -/
inductive Cell where
  | null
  | integer (value : Int)
  | real (value : Decimal.Double)
  | text (value : String)
deriving DecidableEq

/-- A class number as a value in a database. -/
def ClassId.cell (id : ClassId) : Cell :=
  .integer id.value.toNat

/-- Classes are told apart by their cells. -/
theorem ClassId.cell_inj {id id' : ClassId} : id.cell = id'.cell ↔ id = id' := by
  constructor
  · intro h
    have hvalue : id.value.toNat = id'.value.toNat := Int.ofNat.inj (Cell.integer.inj h)
    obtain ⟨value⟩ := id
    obtain ⟨value'⟩ := id'
    exact congrArg ClassId.mk (UInt64.toNat_inj.1 hvalue)
  · exact congrArg ClassId.cell

/-- A row of a table, with the class of the instance that is stored in it. -/
structure Row where
  table : String
  classId : ClassId
  /-- The values, by the names of the columns. -/
  cell : String → Cell

/-- The rows of all tables, and the table of classes and their base classes. -/
structure Database where
  rows : List Row
  hierarchy : List (ClassId × ClassId)

/-! ## Reading -/

/-- Whether the class in a cell passes a condition. -/
def ClassFilter.accepts (filter : ClassFilter) (db : Database) (cell : Cell) : Bool :=
  match filter with
  | .exactly id => cell = id.cell
  | .within id => db.hierarchy.any fun (classId, base) => classId.cell = cell && base = id

/-- What a column of a view shows of a row. -/
def ViewColumn.cell (column : ViewColumn) (row : Row) : Cell :=
  match column.source with
  | some (.column name) => row.cell name
  | some (.classId id) => id.cell
  | none => .null

namespace ViewArm

/-- Whether an arm of a view reads a row. -/
def selects (arm : ViewArm) (db : Database) (row : Row) : Bool :=
  row.table = arm.table.name &&
    match arm.filter with
    | some (column, filter) => filter.accepts db (row.cell column)
    | none => true

/-- The rows that an arm of a view reads. -/
def rows (arm : ViewArm) (db : Database) : List Row :=
  db.rows.filter (arm.selects db)

/-- What an arm of a view shows of a row under a name. -/
def cell? (arm : ViewArm) (name : String) (row : Row) : Option Cell :=
  (arm.columns.find? (·.name = name)).map (·.cell row)

end ViewArm

/-- The rows that a view reads. -/
def View.rows (view : View) (db : Database) : List Row :=
  view.arms.flatMap (·.rows db)

end EntitySql
