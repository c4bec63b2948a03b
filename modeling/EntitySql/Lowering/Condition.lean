import EntitySql.Lowering.Operand
import EntitySql.Sql.Predicate
import EntitySql.Storage.ClassFilter

/-!
# Conditions

How conditions are lowered. Composite values are compared column by column. A comparison with all or
some rows of a subquery becomes a test whether a counterexample or an example exists: the subquery
is lowered with an anchor for its condition, and the comparison with its columns is put there.
-/

namespace EntitySql

/-- The keyword that asks for an example, or for the absence of a counterexample. -/
def Quantifier.keyword : Quantifier → String
  | .all => "NOT EXISTS"
  | .any | .some => "EXISTS"

namespace Lowering

open Sql (Columns Fragment Predicate)

/-- Two fragments with an operator between them. -/
def binary (lhs : Fragment) (op : BooleanOperator) (rhs : Fragment) : Fragment :=
  lhs ++ (" " ++ op.sql ++ " ") ++ rhs

/-- The column of a test whether a class is in a list of classes. -/
def typeTest (lhs : Operand) (op : BooleanOperator) (entries : List TypeEntry)
    (parenthesized : Bool) : Lowering Columns := do
  let negation ←
    match op with
    | .is => pure ""
    | .isNot => pure "NOT "
    | op => violate (.typeListOperator op)
  let lhs ← lhs.single "Left operand of IS (type list)"
  match TypeFilter.ofEntries? (← catalog) entries with
  | none => violate .emptyTypeList
  | some filter => return [(lhs ++ (" " ++ negation ++ filter.sql)).parenthesizedIf parenthesized]

/-- The column of an operator on two single columns. -/
def singleOperands (lhs : Operand) (lhsRole : String) (op : BooleanOperator) (rhs : Operand)
    (rhsRole : String) (parenthesized : Bool) : Lowering Columns := do
  let lhs ← lhs.single lhsRole
  let rhs ← rhs.single rhsRole
  return [(binary lhs op rhs).parenthesizedIf parenthesized]

/-- The column of an operator on two conditions or values. -/
def boolean (lhs : Operand) (op : BooleanOperator) (rhs : Operand) (parenthesized : Bool) :
    Lowering Columns :=
  match rhs.exp with
  | .typeList entries => typeTest lhs op entries parenthesized
  | _ =>
    match op with
    | .and | .or => singleOperands lhs "Boolean operand" op rhs "Boolean operand" parenthesized
    | .in | .notIn | .match | .notMatch =>
      singleOperands lhs "Left operand of IN / MATCH" op rhs "Right operand of IN / MATCH"
        parenthesized
    | .comparison _ | .is | .isNot => do
      let (lhs, rhs) ← lhs.lowerAligned rhs
      return [(Predicate.compound lhs op rhs parenthesized).sql]

/-- The column of a negation. -/
def not (operand : Operand) (parenthesized : Bool) : Lowering Columns := do
  let operand ← operand.single "NOT operand"
  return [Fragment.parenthesizedIf parenthesized ("NOT " ++ operand)]

/-! ## Ranges and patterns -/

/-- The columns of a bound of a range; a bare `NULL` takes the width of the operand. -/
def rangeBound (bound : Operand) (width : Nat) : Lowering Columns :=
  if bound.exp.isNull then return nullColumns bound.exp.isParenthesized width
  else bound.lower

/-- The condition that columns lie between bounds, each between its own. -/
def rangeTest (operand lower upper : Columns) (negated : Bool) : Fragment :=
  let keyword := if negated then " NOT BETWEEN " else " BETWEEN "
  let terms := (operand.zip (lower.zip upper)).map fun (column, lo, hi) =>
    column ++ keyword ++ lo ++ " AND " ++ hi
  match terms with
  | [term] => term
  | terms => (Fragment.join (if negated then " OR " else " AND ") terms).parenthesized

/-- The column of a test whether a value lies between two others. -/
def between (operand lower upper : Operand) (negated : Bool) : Lowering Columns := do
  let operand ← operand.lower
  let lower ← rangeBound lower operand.length
  let upper ← rangeBound upper operand.length
  if lower.length ≠ operand.length || upper.length ≠ operand.length then
    reject (.betweenWidths operand.length lower.length upper.length)
  return [rangeTest operand lower upper negated]

/-- The column of a comparison with a pattern. -/
def like (operand pattern : Operand) (escape : Option Operand) (negated : Bool) :
    Lowering Columns := do
  let operand ← operand.single "LIKE operand"
  let pattern ← pattern.single "LIKE pattern"
  let escape ← Operand.single? escape "LIKE escape"
  let last : Fragment :=
    match escape with
    | none => ""
    | some escape => " ESCAPE " ++ escape
  return [operand ++ (if negated then " NOT LIKE " else " LIKE ") ++ pattern ++ last]

/-! ## Subqueries -/

/-- The column of a test of a subquery. -/
def subqueryTest (test : SubqueryTest) (select : Lowering Unit) : Lowering Columns :=
  match test with
  | .unique => reject .uniqueSubquery
  | .exists => do return ["EXISTS" ++ (← capture select).parenthesized]

/-- Which columns of a value and of a row of a subquery are compared. A single column is compared
with every column of the row. -/
def quantifiedPairs (operand columns : Columns) : Except Violation (List (Fragment × Fragment)) :=
  if columns.isEmpty then .error .emptyQuantifiedList
  else if operand.length = columns.length then .ok (operand.zip columns)
  else
    match operand with
    | [column] => .ok (columns.map (column, ·))
    | _ => .error (.quantifiedWidths operand.length columns.length)

/-- The condition of a subquery whose rows decide a quantified comparison. -/
def quantifiedCondition (operand : Columns) (op : ComparisonOperator) (quantifier : Quantifier)
    (select : Sql.CapturedSelect) : Except Violation Fragment := do
  let pairs ← quantifiedPairs operand select.columns
  let predicate := (Predicate.quantified pairs op quantifier).sql
  match select.condition with
  | some condition => return condition.parenthesized ++ " AND " ++ predicate
  | none => return predicate

/-- The column of a comparison with the rows of a subquery. -/
def quantified (operand : Operand) (op : ComparisonOperator) (quantifier : Quantifier)
    (isCompound : Bool) (select : Lowering Unit) : Lowering Columns := do
  if isCompound then
    reject .compoundQuantified
  let operand ← operand.lower
  let anchor ← reserveAnchor
  let subquery ← capture select
  if (← takePending).isSome then
    violate .anchorNotTaken
  let captured ← takeCapture anchor
  resolveAnchor anchor (← ofRule (quantifiedCondition operand op quantifier captured))
  return [quantifier.keyword ++ subquery.parenthesized]

end Lowering

end EntitySql
