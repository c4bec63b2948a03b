import EntitySql.Codec.Literal
import EntitySql.Syntax.Clause

/-!
# Reading clauses from JSON

Each clause is read given how the expressions and sources inside it are.
-/

namespace EntitySql

open Json (Dialect bool? list? string? variant?)

variable {α β : Type} (dialect : Dialect)

namespace BooleanOperator

/-- The JSON form of an operator on two operands. -/
def toJson : BooleanOperator → Json
  | .comparison op => .variant "Comparison" (.tag op)
  | .is => .string "Is"
  | .isNot => .string "IsNot"
  | .in => .string "In"
  | .notIn => .string "NotIn"
  | .match => .string "Match"
  | .notMatch => .string "NotMatch"
  | .and => .string "And"
  | .or => .string "Or"

/-- Reads an operator on two operands. -/
def ofJson? : Json → Option BooleanOperator :=
  variant? [("Comparison", fun json => return .comparison (← dialect.tag? json)),
    ("Is", dialect.unit? .is), ("IsNot", dialect.unit? .isNot),
    ("In", dialect.unit? .in), ("NotIn", dialect.unit? .notIn),
    ("Match", dialect.unit? .match), ("NotMatch", dialect.unit? .notMatch),
    ("And", dialect.unit? .and), ("Or", dialect.unit? .or)]

end BooleanOperator

/-- Reads a call. -/
def FunctionCall.ofJson? (exp : Json → Option α) (json : Json) : Option (FunctionCall α) := do
  let fields ← json.fields? ["name", "args", "set_quantifier", "star_arg", "type_info"]
  return ⟨← fields.required "name" string?, ← fields.defaulted "args" [] (list? exp),
    ← fields.defaulted "set_quantifier" .unspecified dialect.tag?,
    ← fields.defaulted "star_arg" false bool?,
    ← fields.defaulted "type_info" .unknown (ValueType.ofJson? dialect)⟩

/-- Reads a branch of a case distinction. -/
def CaseBranch.ofJson? (exp : Json → Option α) (json : Json) : Option (CaseBranch α) := do
  let fields ← json.fields? ["when", "then"]
  return ⟨← fields.required "when" exp, ← fields.required "then" exp⟩

/-- Reads a navigation value. -/
def NavigationValue.ofJson? (exp : Json → Option α) (json : Json) :
    Option (NavigationValue α) := do
  let fields ← json.fields? ["property", "id", "rel_class_id", "column_alias"]
  return ⟨← fields.required "property" (PropertyName.ofJson? dialect), ← fields.required "id" exp,
    ← fields.optional "rel_class_id" exp, ← fields.required "column_alias" string?⟩

/-! ## Windows -/

/-- Reads a key of a sort. -/
def SortKey.ofJson? (exp : Json → Option α) (json : Json) : Option (SortKey α) := do
  let fields ← json.fields? ["exp", "direction", "nulls"]
  return ⟨← fields.required "exp" exp, ← fields.optional "direction" dialect.tag?,
    ← fields.optional "nulls" dialect.tag?⟩

/-- Reads a key of a partition. -/
def PartitionKey.ofJson? (exp : Json → Option α) (json : Json) : Option (PartitionKey α) := do
  let fields ← json.fields? ["exp", "collation"]
  return ⟨← fields.required "exp" exp, ← fields.optional "collation" dialect.tag?⟩

/-- Reads the start of a frame. -/
def FrameStart.ofJson? (exp : Json → Option α) : Json → Option (FrameStart α) :=
  variant? [("CurrentRow", dialect.unit? .currentRow),
    ("UnboundedPreceding", dialect.unit? .unboundedPreceding),
    ("Preceding", fun json => return .preceding (← exp json))]

/-- Reads a bound of a frame. -/
def FrameBound.ofJson? (exp : Json → Option α) : Json → Option (FrameBound α) :=
  variant? [("CurrentRow", dialect.unit? .currentRow),
    ("UnboundedPreceding", dialect.unit? .unboundedPreceding),
    ("Preceding", fun json => return .preceding (← exp json)),
    ("Following", fun json => return .following (← exp json)),
    ("UnboundedFollowing", dialect.unit? .unboundedFollowing)]

/-- Reads the rows of a frame. -/
def FrameExtent.ofJson? (exp : Json → Option α) : Json → Option (FrameExtent α) :=
  variant? [("Start", fun json => return .start (← FrameStart.ofJson? dialect exp json)),
    ("Between", fun json => do
      let fields ← dialect.caseFields? ["first", "second"] json
      return .between (← fields.required "first" (FrameBound.ofJson? dialect exp))
        (← fields.required "second" (FrameBound.ofJson? dialect exp)))]

/-- Reads a frame. -/
def WindowFrame.ofJson? (exp : Json → Option α) (json : Json) : Option (WindowFrame α) := do
  let fields ← json.fields? ["unit", "extent", "exclusion"]
  return ⟨← fields.required "unit" dialect.tag?,
    ← fields.required "extent" (FrameExtent.ofJson? dialect exp),
    ← fields.optional "exclusion" dialect.tag?⟩

/-- Reads a window. -/
def WindowSpec.ofJson? (exp : Json → Option α) (json : Json) : Option (WindowSpec α) := do
  let fields ← json.fields? ["base_window", "partition_by", "order_by", "frame"]
  return ⟨← fields.optional "base_window" string?,
    ← fields.defaulted "partition_by" [] (list? (PartitionKey.ofJson? dialect exp)),
    ← fields.defaulted "order_by" [] (list? (SortKey.ofJson? dialect exp)),
    ← fields.optional "frame" (WindowFrame.ofJson? dialect exp)⟩

/-- Reads the window of a window function. -/
def WindowOver.ofJson? (exp : Json → Option α) : Json → Option (WindowOver α) :=
  variant? [("Spec", fun json => return .spec (← WindowSpec.ofJson? dialect exp json)),
    ("Name", fun json => return .name (← string? json))]

/-- Reads a window with a name. -/
def WindowDefinition.ofJson? (exp : Json → Option α) (json : Json) :
    Option (WindowDefinition α) := do
  let fields ← json.fields? ["name", "spec"]
  return ⟨← fields.required "name" string?,
    ← fields.required "spec" (WindowSpec.ofJson? dialect exp)⟩

/-! ## Selects -/

/-- Reads an item of a select. -/
def SelectItem.ofJson? (exp : Json → Option α) (json : Json) : Option (SelectItem α) := do
  let fields ← json.fields? ["exp", "alias", "nested_alias"]
  return ⟨← fields.required "exp" exp, ← fields.optional "alias" string?,
    ← fields.optional "nested_alias" string?⟩

/-- Reads a limit. -/
def Limit.ofJson? (exp : Json → Option α) (json : Json) : Option (Limit α) := do
  let fields ← json.fields? ["limit", "offset"]
  return ⟨← fields.required "limit" exp, ← fields.optional "offset" exp⟩

/-- Reads a select that is not combined with others. -/
def SelectCore.ofJson? (exp : Json → Option α) (source : Json → Option β) (json : Json) :
    Option (SelectCore α β) := do
  let fields ← json.fields? ["quantifier", "select_list", "from", "where_clause", "group_by",
    "having", "window_clause", "order_by", "limit"]
  return {
    quantifier := ← fields.defaulted "quantifier" .unspecified dialect.tag?
    items := ← fields.required "select_list" (list? (SelectItem.ofJson? exp))
    sources := ← fields.defaulted "from" [] (list? source)
    condition := ← fields.optional "where_clause" exp
    groupBy := ← fields.defaulted "group_by" [] (list? exp)
    having := ← fields.optional "having" exp
    windows := ← fields.defaulted "window_clause" [] (list? (WindowDefinition.ofJson? dialect exp))
    orderBy := ← fields.defaulted "order_by" [] (list? (SortKey.ofJson? dialect exp))
    limit := ← fields.optional "limit" (Limit.ofJson? exp) }

/-- Reads a further select. -/
def CompoundArm.ofJson? (exp : Json → Option α) (source : Json → Option β) (json : Json) :
    Option (CompoundArm α β) := do
  let fields ← json.fields? ["op", "select"]
  return ⟨← fields.required "op" dialect.tag?,
    ← fields.required "select" (SelectCore.ofJson? dialect exp source)⟩

/-- Reads a select. -/
def Select.ofJson? (exp : Json → Option α) (source : Json → Option β) (json : Json) :
    Option (Select α β) := do
  let fields ← json.fields? ["first", "rest"]
  return ⟨← fields.required "first" (SelectCore.ofJson? dialect exp source),
    ← fields.defaulted "rest" [] (list? (CompoundArm.ofJson? dialect exp source))⟩

/-! ## Joins -/

/-- The condition of a join, or the columns that must be equal. -/
def JoinKind.ofSpec? (exp : Json → Option α) (type : JoinType) : Json → Option (JoinKind α) :=
  variant? [("On", fun json => return .on type (← exp json)),
    ("Using", fun json => return .using type (← list? string? json))]

/-- Reads the kind of a join. -/
def JoinKind.ofJson? (exp : Json → Option α) : Json → Option (JoinKind α) :=
  variant? [("Cross", dialect.unit? .cross),
    ("Natural", fun json => return .natural (← dialect.tag? json)),
    ("Qualified", fun json => do
      let fields ← dialect.caseFields? ["join_type", "spec"] json
      let type ← fields.required "join_type" dialect.tag?
      fields.required "spec" (JoinKind.ofSpec? exp type)),
    ("Relationship", fun json => do
      let fields ← dialect.caseFields? ["relationship", "direction"] json
      return .relationship (← fields.required "relationship" ClassName.ofJson?)
        (← fields.required "direction" dialect.tag?))]

end EntitySql
