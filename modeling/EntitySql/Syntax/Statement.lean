import EntitySql.Syntax.Exp

/-!
# Statements

Queries, with or without common tables, and the three statements that change a class.
-/

namespace EntitySql

/-- A table that a `WITH` clause defines by a select. -/
structure CommonTable where
  name : String
  columns : List String
  select : Select Exp Source

/-- A select with common tables in front of it. -/
structure WithSelect where
  recursive : Bool
  tables : List CommonTable
  select : Select Exp Source

/-- The insertion of one instance. -/
structure Insert where
  className : ClassName
  properties : List PropertyName
  values : List Exp

/-- A new value for a property. -/
structure Assignment where
  property : PropertyName
  value : Exp

/-- A change to the instances of a class. -/
structure Update where
  className : ClassName
  assignments : List Assignment
  condition : Option Exp

/-- The removal of instances of a class. -/
structure Delete where
  className : ClassName
  condition : Option Exp

/-- A statement. -/
inductive Statement where
  | select (select : Select Exp Source)
  | withSelect (statement : WithSelect)
  | insert (statement : Insert)
  | update (statement : Update)
  | delete (statement : Delete)

namespace Statement

/-- The kind of a statement; a select with common tables is a select. -/
def kind : Statement → StatementKind
  | .select _ | .withSelect _ => .select
  | .insert _ => .insert
  | .update _ => .update
  | .delete _ => .delete

end Statement

end EntitySql
