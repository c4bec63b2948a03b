import EntitySql.Lowering.Call

/-!
# Windows

Window functions, and the windows that they look through.
-/

namespace EntitySql

/-- Whether rows can be divided into partitions by an expression. -/
def Exp.isPartitionKey : Exp → Bool
  | .property _ | .enumerator .. | .extractProperty .. | .extractInstance _ => true
  | _ => false

/-- The place of a bound in the order of rows. -/
def FrameBound.rank {α : Type} : FrameBound α → Nat
  | .unboundedPreceding => 0
  | .preceding _ => 1
  | .currentRow => 2
  | .following _ => 3
  | .unboundedFollowing => 4

/-- Whether a frame between two bounds can hold rows. -/
def FrameBound.isBefore {α : Type} (first second : FrameBound α) : Bool :=
  first.rank ≠ 4 && second.rank ≠ 0 && first.rank ≤ second.rank

/-- What a frame says about the rows it leaves out. Ties cannot be left out in the database; only
the current row is then. -/
def FrameExclusion.sql : FrameExclusion → String
  | .currentRow | .ties => " EXCLUDE CURRENT ROW"
  | .group => " EXCLUDE GROUP"
  | .noOthers => " EXCLUDE NO OTHERS"

/-- What stands behind a key of a sort. -/
def SortKey.suffix {α : Type} (key : SortKey α) : String :=
  let direction :=
    match key.direction with
    | some .asc => " ASC"
    | some .desc => " DESC"
    | none => ""
  let nulls :=
    match key.nulls with
    | some .first => " NULLS FIRST"
    | some .last => " NULLS LAST"
    | none => ""
  direction ++ nulls

namespace Lowering

open Sql (Columns Fragment bracketed)

/-- The columns of a key of a sort. -/
def sortKey (key : SortKey Operand) : Lowering Columns := do
  return (← key.exp.lower).map (· ++ key.suffix)

/-- The keys of a sort, with commas between them. -/
def sortKeys (keys : List (SortKey Operand)) : Lowering Fragment := do
  return Fragment.join "," (← keys.mapM sortKey).flatten

/-- The columns of an expression that divides rows into partitions. -/
def partitionKey (key : PartitionKey Operand) : Lowering Columns := do
  if !key.exp.exp.isPartitionKey then
    reject .partitionKey
  let columns ← key.exp.lower
  match key.collation with
  | none => return columns
  | some collation => return columns.map (· ++ (" COLLATE " ++ collation.sql))

/-- A distance from the current row. -/
def frameOffset (offset : Operand) (direction : String) : Lowering Fragment := do
  return (← offset.single "Frame offset") ++ (" " ++ direction)

/-- The start of a frame that ends at the current row. -/
def frameStart : FrameStart Operand → Lowering Fragment
  | .currentRow => return "CURRENT ROW"
  | .unboundedPreceding => return "UNBOUNDED PRECEDING"
  | .preceding offset => frameOffset offset "PRECEDING"

/-- A bound of a frame. -/
def frameBound : FrameBound Operand → Lowering Fragment
  | .currentRow => return "CURRENT ROW"
  | .unboundedPreceding => return "UNBOUNDED PRECEDING"
  | .unboundedFollowing => return "UNBOUNDED FOLLOWING"
  | .preceding offset => frameOffset offset "PRECEDING"
  | .following offset => frameOffset offset "FOLLOWING"

/-- The rows of a frame. -/
def frameExtent : FrameExtent Operand → Lowering Fragment
  | .start start => frameStart start
  | .between first second => do
    if !first.isBefore second then
      reject .frameBounds
    let first ← frameBound first
    let second ← frameBound second
    return "BETWEEN " ++ first ++ " AND " ++ second

/-- A frame. -/
def frame (f : WindowFrame Operand) : Lowering Fragment := do
  let extent ← frameExtent f.extent
  return (f.unit.sql ++ " ") ++ extent ++ (f.exclusion.elim "" FrameExclusion.sql)

/-- A part of a window, if it has this part. -/
def partitionPart (keys : List (PartitionKey Operand)) : Lowering (List Fragment) :=
  if keys.isEmpty then return []
  else do
    return ["PARTITION BY " ++ Fragment.join "," (← keys.mapM partitionKey).flatten]

/-- The order of the rows of a window, if it has one. -/
def orderPart (keys : List (SortKey Operand)) : Lowering (List Fragment) :=
  if keys.isEmpty then return []
  else do
    return ["ORDER BY " ++ (← sortKeys keys)]

/-- The frame of a window, if it has one. -/
def framePart : Option (WindowFrame Operand) → Lowering (List Fragment)
  | none => return []
  | some f => do return [← frame f]

/-- A window without the parentheses around it. -/
def windowSpec (window : WindowSpec Operand) : Lowering Fragment := do
  let base := window.base.toList.map fun name => Fragment.ofText (bracketed name)
  let partitionBy ← partitionPart window.partitionBy
  let orderBy ← orderPart window.orderBy
  let frame ← framePart window.frame
  return Fragment.join " " (base ++ partitionBy ++ orderBy ++ frame)

/-- The window of a window function. -/
def windowOver : WindowOver Operand → Lowering Fragment
  | .spec window => do return (← windowSpec window).parenthesized
  | .name name => return bracketed name

/-- A window with its name. -/
def windowDefinition (definition : WindowDefinition Operand) : Lowering Fragment := do
  return (bracketed definition.name ++ " AS ") ++ (← windowSpec definition.window).parenthesized

/-- The clause that names windows. -/
def windowClause (definitions : List (WindowDefinition Operand)) : Lowering Fragment := do
  return "WINDOW " ++ Fragment.join "," (← definitions.mapM windowDefinition)

/-- The condition on the rows that a window function counts. -/
def windowFilter (filter : Option Operand) : Lowering Fragment := do
  match ← Operand.single? filter "Window FILTER condition" with
  | none => return ""
  | some condition => return " FILTER(WHERE " ++ condition ++ ")"

/-- Rejects a known function that cannot have a window. -/
def checkWindowFunction (functions : Registry) (name : String) : Lowering Unit :=
  match functions.find? name with
  | some function =>
    if function.kind = .scalar || function.kind = .tableValued then
      reject (.notWindowFunction function.name)
    else return ()
  | none => return ()

/-- The column of a window function. -/
def window (c : FunctionCall Operand) (filter : Option Operand) (overWindow : WindowOver Operand) :
    Lowering Columns := do
  checkWindowFunction (← environment).functions c.name
  let c ← call c .window
  let filter ← windowFilter filter
  let overWindow ← windowOver overWindow
  return [c.call ++ filter ++ " OVER " ++ overWindow ++ c.suffix]

end Lowering

end EntitySql
