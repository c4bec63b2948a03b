/-!
# Operators and keywords

The closed sets of operators and keywords of a statement, with their SQL text.
-/

namespace EntitySql

/-- Operators on two values. -/
inductive ArithmeticOperator where
  | plus
  | minus
  | multiply
  | divide
  | modulo
  | concat
  | bitwiseAnd
  | bitwiseOr
  | shiftLeft
  | shiftRight
deriving DecidableEq

/-- The operator as SQL. -/
def ArithmeticOperator.sql : ArithmeticOperator → String
  | .plus => "+"
  | .minus => "-"
  | .multiply => "*"
  | .divide => "/"
  | .modulo => "%"
  | .concat => "||"
  | .bitwiseAnd => "&"
  | .bitwiseOr => "|"
  | .shiftLeft => "<<"
  | .shiftRight => ">>"

/-- Operators on one value. -/
inductive SignOperator where
  | minus
  | plus
  | bitwiseNot
deriving DecidableEq

/-- The operator as SQL. -/
def SignOperator.sql : SignOperator → String
  | .minus => "-"
  | .plus => "+"
  | .bitwiseNot => "~"

/-- Whether equal rows or arguments count once. -/
inductive SetQuantifier where
  | unspecified
  | all
  | distinct
deriving DecidableEq

/-- The keyword with a space behind it, or nothing. -/
def SetQuantifier.sql : SetQuantifier → String
  | .unspecified => ""
  | .all => "ALL "
  | .distinct => "DISTINCT "

/-- Comparisons of two values. -/
inductive ComparisonOperator where
  | eq
  | ne
  | lt
  | le
  | gt
  | ge
deriving DecidableEq

namespace ComparisonOperator

/-- The operator as SQL. -/
def sql : ComparisonOperator → String
  | .eq => "="
  | .ne => "<>"
  | .lt => "<"
  | .le => "<="
  | .gt => ">"
  | .ge => ">="

/-- The comparison that holds exactly when this one does not. -/
def negate : ComparisonOperator → ComparisonOperator
  | .eq => .ne
  | .ne => .eq
  | .lt => .ge
  | .ge => .lt
  | .le => .gt
  | .gt => .le

end ComparisonOperator

/-- Operators that make a condition from two operands. -/
inductive BooleanOperator where
  | comparison (op : ComparisonOperator)
  | is
  | isNot
  | in
  | notIn
  | match
  | notMatch
  | and
  | or
deriving DecidableEq

namespace BooleanOperator

/-- The operator as SQL. -/
def sql : BooleanOperator → String
  | .comparison op => op.sql
  | .is => "IS"
  | .isNot => "IS NOT"
  | .in => "IN"
  | .notIn => "NOT IN"
  | .match => "MATCH"
  | .notMatch => "NOT MATCH"
  | .and => "AND"
  | .or => "OR"

/-- Whether two composite values satisfy the operator as soon as one pair of their parts does. -/
def isNegative : BooleanOperator → Bool
  | .comparison .ne | .isNot | .notIn | .notMatch => true
  | _ => false

end BooleanOperator

/-- How often a comparison with the rows of a subquery has to hold. -/
inductive Quantifier where
  | all
  | any
  | some
deriving DecidableEq

/-- What a subquery is tested for. -/
inductive SubqueryTest where
  | exists
  | unique
deriving DecidableEq

/-- How two selects are combined. -/
inductive CompoundOperator where
  | union
  | unionAll
  | intersect
  | except
deriving DecidableEq

/-- The operator as SQL. -/
def CompoundOperator.sql : CompoundOperator → String
  | .union => "UNION"
  | .unionAll => "UNION ALL"
  | .intersect => "INTERSECT"
  | .except => "EXCEPT"

/-- What happens to rows without a partner in a join. -/
inductive JoinType where
  | inner
  | leftOuter
  | rightOuter
  | fullOuter
deriving DecidableEq

/-- The keyword as SQL. -/
def JoinType.sql : JoinType → String
  | .inner => "INNER JOIN"
  | .leftOuter => "LEFT OUTER JOIN"
  | .rightOuter => "RIGHT OUTER JOIN"
  | .fullOuter => "FULL OUTER JOIN"

/-- In which direction a relationship is followed by a join. -/
inductive JoinDirection where
  | implied
  | forward
  | backward
deriving DecidableEq

/-- The name of the direction in messages. -/
def JoinDirection.name : JoinDirection → String
  | .implied => "Implied"
  | .forward => "Forward"
  | .backward => "Backward"

/-- How texts are compared. -/
inductive Collation where
  | binary
  | noCase
  | rTrim
deriving DecidableEq

/-- The name as SQL. -/
def Collation.sql : Collation → String
  | .binary => "BINARY"
  | .noCase => "NOCASE"
  | .rTrim => "RTRIM"

/-- The direction of a sort. -/
inductive SortDirection where
  | asc
  | desc
deriving DecidableEq

/-- Where a sort puts `NULL`. -/
inductive NullsOrder where
  | first
  | last
deriving DecidableEq

/-- What the bounds of a window frame count. -/
inductive FrameUnit where
  | rows
  | range
  | groups
deriving DecidableEq

/-- The keyword as SQL. -/
def FrameUnit.sql : FrameUnit → String
  | .rows => "ROWS"
  | .range => "RANGE"
  | .groups => "GROUPS"

/-- Which rows a window frame leaves out. -/
inductive FrameExclusion where
  | currentRow
  | group
  | ties
  | noOthers
deriving DecidableEq

/-- The kinds of statements. -/
inductive StatementKind where
  | select
  | insert
  | update
  | delete
deriving DecidableEq

/-- The name of the kind in messages. -/
def StatementKind.name : StatementKind → String
  | .select => "Select"
  | .insert => "Insert"
  | .update => "Update"
  | .delete => "Delete"

end EntitySql
