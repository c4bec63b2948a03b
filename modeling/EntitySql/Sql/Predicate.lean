import EntitySql.Sql.Fragment
import EntitySql.Syntax.Operator
import EntitySql.Text.Ascii

/-!
# Predicates on composite values

Two composite values are compared column by column. The comparisons of the columns are joined by
`AND` or by `OR`. `Predicate.compound` compares two values directly, and `Predicate.quantified`
compares a value with the columns of a row of a subquery.
-/

namespace EntitySql.Sql

/-- A comparison of two columns. -/
structure Comparison where
  lhs : Fragment
  op : BooleanOperator
  rhs : Fragment

/-- The comparison as SQL. -/
def Comparison.sql (comparison : Comparison) : Fragment :=
  comparison.lhs ++ (" " ++ comparison.op.sql ++ " ") ++ comparison.rhs

/-- How comparisons are joined. -/
inductive Connective where
  | and
  | or
deriving DecidableEq

/-- The connective with spaces around it. -/
def Connective.sql : Connective → String
  | .and => " AND "
  | .or => " OR "

/-- Comparisons joined by one connective. -/
structure Predicate where
  connective : Connective
  comparisons : List Comparison
  /-- Whether parentheses stand around the whole. -/
  grouped : Bool

namespace Predicate

/-- The predicate as SQL; without comparisons it is true. -/
def sql (predicate : Predicate) : Fragment :=
  if predicate.comparisons.isEmpty then "TRUE"
  else
    let joined := Fragment.join predicate.connective.sql (predicate.comparisons.map (·.sql))
    joined.parenthesizedIf predicate.grouped

/-- The column with the relationship class of the parent of an element. The instance of the parent
decides alone whether there is a parent. -/
def parentClassColumn : String :=
  "[Element].[ParentRelECClassId]"

/-- Whether a comparison with `NULL` adds nothing, because it is for the relationship class of the
parent of an element. -/
def isRedundant (lhs rhs : Fragment) : Bool :=
  lhs.text?.any (Text.sameName · parentClassColumn)
    && (rhs.text? = some "NULL" || rhs.text? = some "(NULL)")

/-- Compares two values of the same width. Several comparisons are always grouped, and a single one
if the source had parentheses around it. -/
def compound (lhs : Columns) (op : BooleanOperator) (rhs : Columns) (parenthesized : Bool) :
    Predicate :=
  let pairs := (lhs.zip rhs).filter fun (l, r) => !isRedundant l r
  { connective := if op.isNegative then .or else .and
    comparisons := pairs.map fun (l, r) => ⟨l, op, r⟩
    grouped := if pairs.length = 1 then parenthesized else true }

/-- The condition on a row of a subquery that decides a quantified comparison: for `ALL` that the
row is a counterexample, for `ANY` and `SOME` that it is an example. -/
def quantified (pairs : List (Fragment × Fragment)) (op : ComparisonOperator)
    (quantifier : Quantifier) : Predicate :=
  match quantifier with
  | .all =>
    { connective := .and
      comparisons := pairs.map fun (l, r) => ⟨l, .comparison op.negate, r⟩
      grouped := false }
  | .any | .some =>
    { connective := .or
      comparisons := pairs.map fun (l, r) => ⟨l, .comparison op, r⟩
      grouped := 1 < pairs.length }

end Predicate

end EntitySql.Sql
