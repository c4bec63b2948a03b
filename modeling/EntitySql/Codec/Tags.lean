import EntitySql.Json.Record
import EntitySql.Schema.Class
import EntitySql.Syntax.Operator

/-!
# Names of operators and keywords

The names under which the members of closed sets occur in JSON.
-/

namespace EntitySql

instance : Tagged PrimitiveType where
  all := [.binary, .boolean, .dateTime, .double, .integer, .long, .point2d, .point3d, .string,
    .geometry]
  tag := PrimitiveType.name
  find_tag a := by cases a <;> decide

instance : Tagged ClassKind where
  all := [.entity, .relationship, .struct, .customAttribute, .mixin]
  tag
    | .entity => "Entity"
    | .relationship => "Relationship"
    | .struct => "Struct"
    | .customAttribute => "CustomAttribute"
    | .mixin => "Mixin"
  find_tag a := by cases a <;> decide

instance : Tagged ClassModifier where
  all := [.none, .abstract, .sealed]
  tag
    | .none => "None"
    | .abstract => "Abstract"
    | .sealed => "Sealed"
  find_tag a := by cases a <;> decide

instance : Tagged NavigationDirection where
  all := [.forward, .backward]
  tag
    | .forward => "Forward"
    | .backward => "Backward"
  find_tag a := by cases a <;> decide

instance : Tagged ArithmeticOperator where
  all := [.plus, .minus, .multiply, .divide, .modulo, .concat, .bitwiseAnd, .bitwiseOr, .shiftLeft,
    .shiftRight]
  tag
    | .plus => "Plus"
    | .minus => "Minus"
    | .multiply => "Multiply"
    | .divide => "Divide"
    | .modulo => "Modulo"
    | .concat => "Concat"
    | .bitwiseAnd => "BitwiseAnd"
    | .bitwiseOr => "BitwiseOr"
    | .shiftLeft => "ShiftLeft"
    | .shiftRight => "ShiftRight"
  find_tag a := by cases a <;> decide

instance : Tagged SignOperator where
  all := [.minus, .plus, .bitwiseNot]
  tag
    | .minus => "Minus"
    | .plus => "Plus"
    | .bitwiseNot => "BitwiseNot"
  find_tag a := by cases a <;> decide

instance : Tagged SetQuantifier where
  all := [.unspecified, .all, .distinct]
  tag
    | .unspecified => "NotSpecified"
    | .all => "All"
    | .distinct => "Distinct"
  find_tag a := by cases a <;> decide

instance : Tagged ComparisonOperator where
  all := [.eq, .ne, .lt, .le, .gt, .ge]
  tag
    | .eq => "Eq"
    | .ne => "Ne"
    | .lt => "Lt"
    | .le => "Le"
    | .gt => "Gt"
    | .ge => "Ge"
  find_tag a := by cases a <;> decide

instance : Tagged Quantifier where
  all := [.all, .any, .some]
  tag
    | .all => "All"
    | .any => "Any"
    | .some => "Some"
  find_tag a := by cases a <;> decide

instance : Tagged SubqueryTest where
  all := [.exists, .unique]
  tag
    | .exists => "Exists"
    | .unique => "Unique"
  find_tag a := by cases a <;> decide

instance : Tagged CompoundOperator where
  all := [.union, .unionAll, .intersect, .except]
  tag
    | .union => "Union"
    | .unionAll => "UnionAll"
    | .intersect => "Intersect"
    | .except => "Except"
  find_tag a := by cases a <;> decide

instance : Tagged JoinType where
  all := [.inner, .leftOuter, .rightOuter, .fullOuter]
  tag
    | .inner => "Inner"
    | .leftOuter => "LeftOuter"
    | .rightOuter => "RightOuter"
    | .fullOuter => "FullOuter"
  find_tag a := by cases a <;> decide

instance : Tagged JoinDirection where
  all := [.implied, .forward, .backward]
  tag := JoinDirection.name
  find_tag a := by cases a <;> decide

instance : Tagged Collation where
  all := [.binary, .noCase, .rTrim]
  tag
    | .binary => "Binary"
    | .noCase => "NoCase"
    | .rTrim => "RTrim"
  find_tag a := by cases a <;> decide

instance : Tagged SortDirection where
  all := [.asc, .desc]
  tag
    | .asc => "Asc"
    | .desc => "Desc"
  find_tag a := by cases a <;> decide

instance : Tagged NullsOrder where
  all := [.first, .last]
  tag
    | .first => "First"
    | .last => "Last"
  find_tag a := by cases a <;> decide

instance : Tagged FrameUnit where
  all := [.rows, .range, .groups]
  tag
    | .rows => "Rows"
    | .range => "Range"
    | .groups => "Groups"
  find_tag a := by cases a <;> decide

instance : Tagged FrameExclusion where
  all := [.currentRow, .group, .ties, .noOthers]
  tag
    | .currentRow => "CurrentRow"
    | .group => "Group"
    | .ties => "Ties"
    | .noOthers => "NoOthers"
  find_tag a := by cases a <;> decide

instance : Tagged StatementKind where
  all := [.select, .insert, .update, .delete]
  tag := StatementKind.name
  find_tag a := by cases a <;> decide

end EntitySql
