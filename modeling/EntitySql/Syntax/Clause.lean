import EntitySql.Syntax.Literal
import EntitySql.Syntax.Operator

/-!
# Clauses

The shapes of the clauses of a statement, over a type `α` of expressions and a type `β` of items of
a `FROM` clause. Expressions and clauses contain each other, so that the type of expressions is only
defined on top of these shapes.
-/

namespace EntitySql

/-- A call of a function. -/
structure FunctionCall (α : Type) where
  name : String
  args : List α
  quantifier : SetQuantifier
  /-- Whether the argument is `*`. -/
  star : Bool
  type : ValueType

/-- One branch of a case distinction. -/
structure CaseBranch (α : Type) where
  condition : α
  value : α

/-- The construction of a navigation value. -/
structure NavigationValue (α : Type) where
  /-- The navigation property that the value is for. -/
  property : PropertyName
  id : α
  relationship : Option α
  aliasName : String

/-! ## Windows -/

/-- A key of a sort. -/
structure SortKey (α : Type) where
  exp : α
  direction : Option SortDirection
  nulls : Option NullsOrder

/-- An expression that divides rows into partitions. -/
structure PartitionKey (α : Type) where
  exp : α
  collation : Option Collation

/-- The start of a frame that ends at the current row. -/
inductive FrameStart (α : Type) where
  | currentRow
  | unboundedPreceding
  | preceding (offset : α)

/-- A bound of a frame. -/
inductive FrameBound (α : Type) where
  | currentRow
  | unboundedPreceding
  | preceding (offset : α)
  | following (offset : α)
  | unboundedFollowing

/-- The rows of a frame. -/
inductive FrameExtent (α : Type) where
  | start (start : FrameStart α)
  | between (first second : FrameBound α)

/-- The rows around the current row that a window function sees. -/
structure WindowFrame (α : Type) where
  unit : FrameUnit
  extent : FrameExtent α
  exclusion : Option FrameExclusion

/-- A window: which rows belong together, in which order, and which of them are seen. -/
structure WindowSpec (α : Type) where
  /-- A named window that this one extends. -/
  base : Option String
  partitionBy : List (PartitionKey α)
  orderBy : List (SortKey α)
  frame : Option (WindowFrame α)

/-- The window of a window function. -/
inductive WindowOver (α : Type) where
  | spec (window : WindowSpec α)
  | name (name : String)

/-- A window with a name. -/
structure WindowDefinition (α : Type) where
  name : String
  window : WindowSpec α

/-! ## Selects -/

/-- An item of the list behind `SELECT`. -/
structure SelectItem (α : Type) where
  exp : α
  aliasName : Option String
  /-- The alias under which an enclosing select exposes the item. -/
  nestedAlias : Option String

/-- The number of rows and how many of them to skip. -/
structure Limit (α : Type) where
  count : α
  offset : Option α

/-- A select without the operators that combine selects. -/
structure SelectCore (α β : Type) where
  quantifier : SetQuantifier
  items : List (SelectItem α)
  sources : List β
  condition : Option α
  groupBy : List α
  having : Option α
  windows : List (WindowDefinition α)
  orderBy : List (SortKey α)
  limit : Option (Limit α)

/-- A further select, combined with those before it. -/
structure CompoundArm (α β : Type) where
  op : CompoundOperator
  core : SelectCore α β

/-- A select, or several combined from left to right. -/
structure Select (α β : Type) where
  first : SelectCore α β
  rest : List (CompoundArm α β)

/-- Whether several selects are combined. -/
def Select.isCompound {α β : Type} (select : Select α β) : Bool :=
  !select.rest.isEmpty

/-! ## Joins -/

/-- How two items of a `FROM` clause are joined. -/
inductive JoinKind (α : Type) where
  | cross
  | natural (type : JoinType)
  | on (type : JoinType) (condition : α)
  | using (type : JoinType) (columns : List String)
  /-- Through the links of a relationship class. -/
  | relationship (link : ClassName) (direction : JoinDirection)

end EntitySql
