import EntitySql.Lowering.Basic
import EntitySql.Sql.Quoting

/-!
# Operands

An operand is an expression together with the step that lowers it to columns. How an expression is
lowered can then be said in terms of its operands alone, without recursion. Where two values meet,
`align` gives them the same width: a bare `NULL` takes the width of the other value.
-/

namespace EntitySql

open Sql (Columns Fragment)

/-- An expression, and how its columns are found. -/
structure Operand where
  exp : Exp
  /-- Finds the columns, at the depth at which the expression stands. -/
  body : Lowering Columns

namespace Operand

/-- The columns of an operand, one level deeper. -/
def lower (operand : Operand) : Lowering Columns :=
  Lowering.nested operand.body

/-- The only column of an operand that must have a single one. The role names the operand in
messages. -/
def single (operand : Operand) (role : String) : Lowering Fragment := do
  match ← operand.lower with
  | [] => Lowering.violate (.emptyOperand role)
  | [column] => return column
  | columns => Lowering.reject (.severalColumns role columns.length)

/-- The only column of an operand that may be absent. -/
def single? (operand : Option Operand) (role : String) : Lowering (Option Fragment) :=
  match operand with
  | none => return none
  | some operand => some <$> operand.single role

end Operand

/-- The columns of a bare `NULL`, with parentheses if it was written with them. -/
def nullColumns (parenthesized : Bool) (count : Nat) : Columns :=
  List.replicate count (if parenthesized then "(NULL)" else "NULL")

/-- The columns of two values in the same number. -/
def align (lhs : Exp) (lhsColumns : Columns) (rhs : Exp) (rhsColumns : Columns) :
    Except Violation (Columns × Columns) :=
  let lhsWidened :=
    if lhs.isNull && !rhs.isNull then nullColumns lhs.isParenthesized rhsColumns.length
    else lhsColumns
  let rhsWidened :=
    if rhs.isNull && !lhs.isNull then nullColumns rhs.isParenthesized lhsColumns.length
    else rhsColumns
  if lhsWidened.length = rhsWidened.length then .ok (lhsWidened, rhsWidened)
  else .error (.operandWidths lhsWidened.length rhsWidened.length)

/-- The columns of two operands in the same number. -/
def Operand.lowerAligned (lhs rhs : Operand) : Lowering (Columns × Columns) := do
  let lhsColumns ← lhs.lower
  let rhsColumns ← rhs.lower
  Lowering.ofRule (align lhs.exp lhsColumns rhs.exp rhsColumns)

end EntitySql
