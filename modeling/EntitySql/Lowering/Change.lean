import EntitySql.Lowering.Exp
import EntitySql.Storage.ClassFilter

/-!
# Insertions, updates and deletions

Statements that change instances write to the table of the class. If other classes are stored there
too, the rows are restricted to those of the class.
-/

namespace EntitySql.Lowering

open Sql (Columns Fragment bracketed)

/-- The table that a class name stands for, as the target of a change. -/
def target (c : ClassName) : Lowering (Fragment × Table) := do
  let sql ← className (fun _ => .all) c
  let map ← usableMap c
  let table ← ofCatalog ((← catalog).table map.table)
  return (sql, table)

/-- The columns of a property and those of its new value, in the same number. -/
def assignment (a : Assignment) : Lowering (Columns × Columns) := do
  let columns ← property a.property
  let values ← a.value.lower
  let (columns, values) ← ofRule (align (.property a.property) columns a.value values)
  if columns.isEmpty then
    violate (.noColumns a.property.access)
  return (columns, values)

/-- The condition on the rows to change: the condition of the statement, and that the rows belong to
the class. -/
def changeCondition (c : ClassName) (table : Table) (condition : Option Exp) :
    Lowering Fragment := do
  let condition ← Operand.single? (optionOperand condition) "WHERE clause"
  let filter ←
    match table.classIdColumn with
    | none => pure none
    | some column =>
      let filter ← ofCatalog ((← catalog).classFilter table c.classId c.polymorphic)
      pure (filter.map (·.sql column))
  match condition, filter with
  | some condition, some filter =>
    return " WHERE " ++ condition.parenthesized ++ (" AND (" ++ filter ++ ")")
  | some condition, none => return " WHERE " ++ condition
  | none, some filter => return Fragment.ofText (" WHERE (" ++ filter ++ ")")
  | none, none => return .empty

/-- Whether some properties include the class of the instance. -/
def setsClass (properties : List PropertyName) : Bool :=
  properties.any fun p => Text.sameName p.access "ECClassId"

/-- The column for the class of a new instance and its value, if the table has one and the statement
does not set it. -/
def classColumn (statement : Insert) (table : Table) : Columns × Columns :=
  match table.classIdColumn with
  | none => ([], [])
  | some column =>
    if setsClass statement.properties then ([], [])
    else ([bracketed column], [statement.className.classId.text])

/-- Writes an insertion. -/
def insertBody (statement : Insert) : Lowering Unit := do
  if statement.properties.length ≠ statement.values.length then
    reject (.insertCount statement.properties.length statement.values.length)
  let (sql, table) ← target statement.className
  let pairs := List.zipWith Assignment.mk statement.properties statement.values
  let assignments ← pairs.mapM assignment
  let (classColumns, classValues) := classColumn statement table
  let columns := assignments.flatMap (·.1) ++ classColumns
  let values := assignments.flatMap (·.2) ++ classValues
  append ("INSERT INTO " ++ sql ++ "(" ++ Fragment.join "," columns ++ ") VALUES ("
    ++ Fragment.join "," values ++ ")")

/-- Writes an update. -/
def updateBody (statement : Update) : Lowering Unit := do
  let (sql, table) ← target statement.className
  let assignments ← statement.assignments.mapM assignment
  let pairs := assignments.flatMap fun (columns, values) =>
    List.zipWith (fun (column value : Fragment) => column ++ "=" ++ value) columns values
  let condition ← changeCondition statement.className table statement.condition
  append ("UPDATE " ++ sql ++ " SET " ++ Fragment.join "," pairs ++ condition)

/-- Writes a deletion. -/
def deleteBody (statement : Delete) : Lowering Unit := do
  let (sql, table) ← target statement.className
  let condition ← changeCondition statement.className table statement.condition
  append ("DELETE FROM " ++ sql ++ condition)

end EntitySql.Lowering
