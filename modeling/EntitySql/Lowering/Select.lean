import EntitySql.Lowering.Navigation
import EntitySql.Lowering.Source
import EntitySql.Lowering.Window

/-!
# Selects

How a select is lowered, given how its operands and sources are. The clauses are written in the
order of the syntax, but sources are lowered first. If an anchor waits for the select, its condition
goes into the anchor, together with its columns.
-/

namespace EntitySql.Lowering

open Sql (Columns Fragment bracketed)

/-- A clause, or nothing if it is absent. -/
def clause (keyword : String) (body : Option Fragment) : Fragment :=
  match body with
  | none => .empty
  | some body => keyword ++ body

/-- Columns with the names that an item gives them. A single column has the alias of the item, and
several are numbered. A navigation value has names of its own. -/
def namedColumns (item : SelectItem Operand) (columns : Columns) : Columns :=
  match item.exp.exp with
  | .navigation value => numberedColumns (item.nestedAlias.getD value.aliasName) columns
  | _ =>
    match item.aliasName, columns with
    | none, columns => columns
    | some aliasName, [column] => [column ++ (" " ++ bracketed aliasName)]
    | some aliasName, columns => numberedColumns aliasName columns

/-- The columns of an item. A navigation value is not a level of its own here. -/
def itemColumns (item : SelectItem Operand) : Lowering Columns :=
  match item.exp.exp with
  | .navigation _ => item.exp.body
  | _ => item.exp.lower

/-- The columns of an item as they are written, and as they are compared. -/
def selectItem (derivedAliases : Bool) (item : SelectItem Operand) :
    Lowering (Columns × Columns) := do
  let columns ← itemColumns item
  return (if derivedAliases then namedColumns item columns else columns, columns)

/-- The condition of a select, or the anchor in its place. -/
def selectCondition (anchor : Option Sql.AnchorId) (columns : Columns)
    (condition : Option Fragment) : Lowering Fragment :=
  match anchor with
  | none => return clause " WHERE " condition
  | some id => do
    captureAt id ⟨columns, condition⟩
    return " WHERE " ++ Fragment.ofAnchor id

/-- Lists of columns, with commas between them all; nothing if there is no list. -/
def columnClause (keyword : String) (lists : List Columns) : Fragment :=
  clause keyword (if lists.isEmpty then none else some (Fragment.join "," lists.flatten))

/-- The clause that limits the number of rows. -/
def limitClause : Option (Limit Operand) → Lowering Fragment
  | none => return .empty
  | some limit => do
    let count ← limit.count.single "LIMIT"
    let offset ← Operand.single? limit.offset "OFFSET"
    return " LIMIT " ++ count ++ clause " OFFSET " offset

/-- A select in the scope that is open for it. -/
def coreBody (core : SelectCore Operand (Lowering Fragment)) (anchor : Option Sql.AnchorId) :
    Lowering Fragment := do
  let sources ← core.sources.mapM id
  let items ← core.items.mapM (selectItem anchor.isNone)
  let condition ← Operand.single? core.condition "WHERE clause"
  let condition ← selectCondition anchor (items.flatMap (·.2)) condition
  let groupBy ← core.groupBy.mapM (·.lower)
  let having ← Operand.single? core.having "HAVING clause"
  let windows ← if core.windows.isEmpty then pure none else some <$> windowClause core.windows
  let orderBy ← core.orderBy.mapM sortKey
  let limit ← limitClause core.limit
  return ("SELECT " ++ core.quantifier.sql) ++ Fragment.join "," (items.flatMap (·.1))
    ++ columnClause " FROM " (sources.map fun source => [source])
    ++ condition
    ++ columnClause " GROUP BY " groupBy
    ++ clause " HAVING " having
    ++ clause " " windows
    ++ columnClause " ORDER BY " orderBy
    ++ limit

/-- A select in a scope of its own. -/
def core (c : SelectCore Operand (Lowering Fragment)) (isRoot : Bool)
    (anchor : Option Sql.AnchorId) : Lowering Fragment :=
  withScope ⟨.select, isRoot, anchor.isNone, !c.sources.isEmpty⟩ (coreBody c anchor)

/-- Writes a further select. -/
def writeArm (isRoot : Bool) (arm : CompoundArm Operand (Lowering Fragment)) : Lowering Unit := do
  let sql ← core arm.core isRoot none
  append ((" " ++ arm.op.sql ++ " ") ++ sql)

/-- Writes a select. An anchor that waits for a select is for the first one. -/
def writeSelect (select : Select Operand (Lowering Fragment)) : Lowering Unit := do
  let isRoot ← isOutermost
  let anchor ← takePending
  append (← core select.first isRoot anchor)
  select.rest.forM (writeArm isRoot)

/-- Writes a statement, or the text that stands in for it. -/
def writeOr (text : StatementTexts → String) (write : Lowering Unit) : Lowering Unit := do
  match (← environment).texts with
  | some texts => append (text texts)
  | none => write

end EntitySql.Lowering
