import EntitySql.Codec.Clause
import EntitySql.Syntax.Exp

/-!
# Expressions and sources in JSON

Writing follows the syntax. Reading carries a bound on how deep expressions and sources may be
nested, which is the depth of the JSON value and so never too small.
-/

namespace EntitySql

open Json (Dialect bool? list? string? variant?)

/-! ## Writing -/

mutual

/-- The JSON form of an expression. -/
def Exp.toJson : Exp → Json
  | .literal l => .variant "Literal" l.toJson
  | .parameter p => .variant "Parameter" p.toJson
  | .property p => .variant "PropertyName" p.toJson
  | .enumerator enumeration name value =>
    .variant "EnumValue" (.object [("enumeration", .string enumeration),
      ("enumerator", .string name), ("value", value.toJson)])
  | .cast operand target =>
    .variant "Cast" (.object [("operand", operand.toJson), ("target", target.toJson)])
  | .arithmetic lhs op rhs type parenthesized =>
    .variant "BinaryValue" (.object [("lhs", lhs.toJson), ("op", .tag op), ("rhs", rhs.toJson),
      ("type_info", type.toJson), ("parenthesized", .bool parenthesized)])
  | .sign op operand type =>
    .variant "UnaryValue" (.object [("op", .tag op), ("operand", operand.toJson),
      ("type_info", type.toJson)])
  | .call c => .variant "FunctionCall" (callJson c)
  | .case branches otherwise type =>
    .variant "Case" (.object [("whens", .array (branchesJson branches)),
      ("otherwise", optionJson otherwise), ("type_info", type.toJson)])
  | .iif condition consequent alternative type =>
    .variant "Iif" (.object [("condition", condition.toJson), ("then", consequent.toJson),
      ("otherwise", alternative.toJson), ("type_info", type.toJson)])
  | .navigation ⟨property, id, relationship, aliasName⟩ =>
    .variant "NavValueCreation" (.object [("property", property.toJson), ("id", id.toJson),
      ("rel_class_id", optionJson relationship), ("column_alias", .string aliasName)])
  | .extractProperty aliasName access type =>
    .variant "ExtractProperty" (.object [("class_alias", .string aliasName),
      ("access_string", .string access), ("type_info", type.toJson)])
  | .extractInstance aliasName =>
    .variant "ExtractInstance" (.object [("class_alias", .string aliasName)])
  | .subquery select => .variant "Subquery" (selectJson select)
  | .list values => .variant "ValueList" (.array (listJson values))
  | .typeList entries => .variant "TypeList" (TypeEntry.listToJson entries)
  | .window c filter overWindow =>
    .variant "WindowFunction" (.object [("function", callJson c), ("filter", optionJson filter),
      ("over", overJson overWindow)])
  | .boolean lhs op rhs parenthesized =>
    .variant "BinaryBoolean" (.object [("lhs", lhs.toJson), ("op", op.toJson), ("rhs", rhs.toJson),
      ("parenthesized", .bool parenthesized)])
  | .not operand parenthesized =>
    .variant "UnaryBoolean" (.object [("operand", operand.toJson),
      ("parenthesized", .bool parenthesized)])
  | .between operand lower upper negated =>
    .variant "Between" (.object [("operand", operand.toJson), ("lower", lower.toJson),
      ("upper", upper.toJson), ("negated", .bool negated)])
  | .like operand pattern escape negated =>
    .variant "Like" (.object [("operand", operand.toJson), ("pattern", pattern.toJson),
      ("escape", optionJson escape), ("negated", .bool negated)])
  | .quantified operand op quantifier select =>
    .variant "AllOrAny" (.object [("operand", operand.toJson), ("op", .tag op),
      ("quantifier", .tag quantifier), ("subquery", selectJson select)])
  | .subqueryTest test select =>
    .variant "SubqueryTest" (.object [("kind", .tag test), ("subquery", selectJson select)])

/-- The JSON form of some expressions. -/
def listJson : List Exp → List Json
  | [] => []
  | exp :: exps => exp.toJson :: listJson exps

/-- The JSON form of an expression that may be absent. -/
def optionJson : Option Exp → Json
  | none => .null
  | some exp => exp.toJson

/-- The JSON form of a call. -/
def callJson : FunctionCall Exp → Json
  | ⟨name, args, quantifier, star, type⟩ =>
    .object [("name", .string name), ("args", .array (listJson args)),
      ("set_quantifier", .tag quantifier), ("star_arg", .bool star), ("type_info", type.toJson)]

/-- The JSON form of some branches. -/
def branchesJson : List (CaseBranch Exp) → List Json
  | [] => []
  | ⟨condition, value⟩ :: branches =>
    .object [("when", condition.toJson), ("then", value.toJson)] :: branchesJson branches

/-- The JSON form of some keys of a partition. -/
def partitionJson : List (PartitionKey Exp) → List Json
  | [] => []
  | ⟨exp, collation⟩ :: keys =>
    .object [("exp", exp.toJson), ("collation", .ofOption .tag collation)] :: partitionJson keys

/-- The JSON form of some keys of a sort. -/
def sortJson : List (SortKey Exp) → List Json
  | [] => []
  | ⟨exp, direction, nulls⟩ :: keys =>
    .object [("exp", exp.toJson), ("direction", .ofOption .tag direction),
      ("nulls", .ofOption .tag nulls)] :: sortJson keys

/-- The JSON form of the start of a frame. -/
def startJson : FrameStart Exp → Json
  | .currentRow => .string "CurrentRow"
  | .unboundedPreceding => .string "UnboundedPreceding"
  | .preceding offset => .variant "Preceding" offset.toJson

/-- The JSON form of a bound of a frame. -/
def boundJson : FrameBound Exp → Json
  | .currentRow => .string "CurrentRow"
  | .unboundedPreceding => .string "UnboundedPreceding"
  | .preceding offset => .variant "Preceding" offset.toJson
  | .following offset => .variant "Following" offset.toJson
  | .unboundedFollowing => .string "UnboundedFollowing"

/-- The JSON form of the rows of a frame. -/
def extentJson : FrameExtent Exp → Json
  | .start start => .variant "Start" (startJson start)
  | .between first second =>
    .variant "Between" (.object [("first", boundJson first), ("second", boundJson second)])

/-- The JSON form of a frame that may be absent. -/
def frameJson : Option (WindowFrame Exp) → Json
  | none => .null
  | some ⟨unit, extent, exclusion⟩ =>
    .object [("unit", .tag unit), ("extent", extentJson extent),
      ("exclusion", .ofOption .tag exclusion)]

/-- The JSON form of a window. -/
def windowJson : WindowSpec Exp → Json
  | ⟨base, partitionBy, orderBy, frame⟩ =>
    .object [("base_window", .ofOption .string base),
      ("partition_by", .array (partitionJson partitionBy)),
      ("order_by", .array (sortJson orderBy)), ("frame", frameJson frame)]

/-- The JSON form of the window of a window function. -/
def overJson : WindowOver Exp → Json
  | .spec window => .variant "Spec" (windowJson window)
  | .name name => .variant "Name" (.string name)

/-- The JSON form of some windows with names. -/
def windowsJson : List (WindowDefinition Exp) → List Json
  | [] => []
  | ⟨name, window⟩ :: windows =>
    .object [("name", .string name), ("spec", windowJson window)] :: windowsJson windows

/-- The JSON form of some items of a select. -/
def itemsJson : List (SelectItem Exp) → List Json
  | [] => []
  | ⟨exp, aliasName, nestedAlias⟩ :: items =>
    .object [("exp", exp.toJson), ("alias", .ofOption .string aliasName),
      ("nested_alias", .ofOption .string nestedAlias)] :: itemsJson items

/-- The JSON form of a limit that may be absent. -/
def limitJson : Option (Limit Exp) → Json
  | none => .null
  | some ⟨count, offset⟩ => .object [("limit", count.toJson), ("offset", optionJson offset)]

/-- The JSON form of a select that is not combined with others. -/
def coreJson : SelectCore Exp Source → Json
  | ⟨quantifier, items, sources, condition, groupBy, having, windows, orderBy, limit⟩ =>
    .object [("quantifier", .tag quantifier), ("select_list", .array (itemsJson items)),
      ("from", .array (sourcesJson sources)), ("where_clause", optionJson condition),
      ("group_by", .array (listJson groupBy)), ("having", optionJson having),
      ("window_clause", .array (windowsJson windows)), ("order_by", .array (sortJson orderBy)),
      ("limit", limitJson limit)]

/-- The JSON form of some further selects. -/
def armsJson : List (CompoundArm Exp Source) → List Json
  | [] => []
  | ⟨op, core⟩ :: arms => .object [("op", .tag op), ("select", coreJson core)] :: armsJson arms

/-- The JSON form of a select. -/
def selectJson : Select Exp Source → Json
  | ⟨first, rest⟩ => .object [("first", coreJson first), ("rest", .array (armsJson rest))]

/-- The JSON form of the kind of a join. -/
def joinJson : JoinKind Exp → Json
  | .cross => .string "Cross"
  | .natural type => .variant "Natural" (.tag type)
  | .on type condition =>
    .variant "Qualified" (.object [("join_type", .tag type),
      ("spec", .variant "On" condition.toJson)])
  | .using type columns =>
    .variant "Qualified" (.object [("join_type", .tag type),
      ("spec", .variant "Using" (.strings columns))])
  | .relationship link direction =>
    .variant "Relationship" (.object [("relationship", link.toJson), ("direction", .tag direction)])

/-- The JSON form of some sources. -/
def sourcesJson : List Source → List Json
  | [] => []
  | source :: sources => source.toJson :: sourcesJson sources

/-- The JSON form of a source. -/
def Source.toJson : Source → Json
  | .ofClass c => .variant "ClassName" c.toJson
  | .join lhs rhs kind =>
    .variant "Join" (.object [("lhs", lhs.toJson), ("rhs", rhs.toJson), ("kind", joinJson kind)])
  | .subquery select aliasName =>
    .variant "Subquery" (.object [("select", selectJson select), ("alias", .string aliasName)])
  | .function c aliasName =>
    .variant "TableValuedFunction" (.object [("function", callJson c),
      ("alias", .ofOption .string aliasName)])
  | .commonTable name aliasName =>
    .variant "CommonTableBlock" (.object [("name", .string name),
      ("alias", .ofOption .string aliasName)])

end

/-! ## Reading -/

/-- How expressions and sources are read. -/
structure SyntaxReader where
  dialect : Dialect
  exp : Json → Option Exp
  source : Json → Option Source

namespace SyntaxReader

/-- A type. -/
def type (reader : SyntaxReader) (json : Json) : Option ValueType :=
  ValueType.ofJson? reader.dialect json

/-- A call. -/
def call (reader : SyntaxReader) (json : Json) : Option (FunctionCall Exp) :=
  FunctionCall.ofJson? reader.dialect reader.exp json

/-- A select. -/
def select (reader : SyntaxReader) (json : Json) : Option (Select Exp Source) :=
  Select.ofJson? reader.dialect reader.exp reader.source json

/-- The cases of an expression, given how the parts are read. -/
def expCases (reader : SyntaxReader) : List (String × (Json → Option Exp)) :=
  [("Literal", fun json => return .literal (← Literal.ofJson? reader.dialect json)),
    ("Parameter", fun json => return .parameter (← Parameter.ofJson? reader.dialect json)),
    ("PropertyName", fun json => return .property (← PropertyName.ofJson? reader.dialect json)),
    ("EnumValue", fun json => do
      let fields ← json.fields? ["enumeration", "enumerator", "value"]
      return .enumerator (← fields.required "enumeration" string?)
        (← fields.required "enumerator" string?)
        (← fields.required "value" (LiteralValue.ofJson? reader.dialect))),
    ("Cast", fun json => do
      let fields ← json.fields? ["operand", "target"]
      return .cast (← fields.required "operand" reader.exp)
        (← fields.required "target" reader.type)),
    ("BinaryValue", fun json => do
      let fields ← json.fields? ["lhs", "op", "rhs", "type_info", "parenthesized"]
      return .arithmetic (← fields.required "lhs" reader.exp)
        (← fields.required "op" reader.dialect.tag?)
        (← fields.required "rhs" reader.exp)
        (← fields.defaulted "type_info" .unknown reader.type)
        (← fields.defaulted "parenthesized" false bool?)),
    ("UnaryValue", fun json => do
      let fields ← json.fields? ["op", "operand", "type_info"]
      return .sign (← fields.required "op" reader.dialect.tag?)
        (← fields.required "operand" reader.exp)
        (← fields.defaulted "type_info" .unknown reader.type)),
    ("FunctionCall", fun json => return .call (← reader.call json)),
    ("Case", fun json => do
      let fields ← json.fields? ["whens", "otherwise", "type_info"]
      return .case (← fields.required "whens" (list? (CaseBranch.ofJson? reader.exp)))
        (← fields.optional "otherwise" reader.exp)
        (← fields.defaulted "type_info" .unknown reader.type)),
    ("Iif", fun json => do
      let fields ← json.fields? ["condition", "then", "otherwise", "type_info"]
      return .iif (← fields.required "condition" reader.exp) (← fields.required "then" reader.exp)
        (← fields.required "otherwise" reader.exp)
        (← fields.defaulted "type_info" .unknown reader.type)),
    ("NavValueCreation", fun json =>
      return .navigation (← NavigationValue.ofJson? reader.dialect reader.exp json)),
    ("ExtractProperty", fun json => do
      let fields ← json.fields? ["class_alias", "access_string", "type_info"]
      return .extractProperty (← fields.required "class_alias" string?)
        (← fields.required "access_string" string?)
        (← fields.defaulted "type_info" .unknown reader.type)),
    ("ExtractInstance", fun json => do
      let fields ← json.fields? ["class_alias"]
      return .extractInstance (← fields.required "class_alias" string?)),
    ("Subquery", fun json => return .subquery (← reader.select json)),
    ("ValueList", fun json => return .list (← list? reader.exp json)),
    ("TypeList", fun json => return .typeList (← TypeEntry.listOfJson? json)),
    ("WindowFunction", fun json => do
      let fields ← json.fields? ["function", "filter", "over"]
      return .window (← fields.required "function" reader.call)
        (← fields.optional "filter" reader.exp)
        (← fields.required "over" (WindowOver.ofJson? reader.dialect reader.exp))),
    ("BinaryBoolean", fun json => do
      let fields ← json.fields? ["lhs", "op", "rhs", "parenthesized"]
      return .boolean (← fields.required "lhs" reader.exp)
        (← fields.required "op" (BooleanOperator.ofJson? reader.dialect))
        (← fields.required "rhs" reader.exp)
        (← fields.defaulted "parenthesized" false bool?)),
    ("UnaryBoolean", fun json => do
      let fields ← json.fields? ["operand", "parenthesized"]
      return .not (← fields.required "operand" reader.exp)
        (← fields.defaulted "parenthesized" false bool?)),
    ("Between", fun json => do
      let fields ← json.fields? ["operand", "lower", "upper", "negated"]
      return .between (← fields.required "operand" reader.exp)
        (← fields.required "lower" reader.exp) (← fields.required "upper" reader.exp)
        (← fields.defaulted "negated" false bool?)),
    ("Like", fun json => do
      let fields ← json.fields? ["operand", "pattern", "escape", "negated"]
      return .like (← fields.required "operand" reader.exp)
        (← fields.required "pattern" reader.exp) (← fields.optional "escape" reader.exp)
        (← fields.defaulted "negated" false bool?)),
    ("AllOrAny", fun json => do
      let fields ← json.fields? ["operand", "op", "quantifier", "subquery"]
      return .quantified (← fields.required "operand" reader.exp)
        (← fields.required "op" reader.dialect.tag?)
        (← fields.required "quantifier" reader.dialect.tag?)
        (← fields.required "subquery" reader.select)),
    ("SubqueryTest", fun json => do
      let fields ← json.fields? ["kind", "subquery"]
      return .subqueryTest (← fields.required "kind" reader.dialect.tag?)
        (← fields.required "subquery" reader.select))]

/-- The cases of a source, given how the parts are read. -/
def sourceCases (reader : SyntaxReader) : List (String × (Json → Option Source)) :=
  [("ClassName", fun json => return .ofClass (← ClassName.ofJson? json)),
    ("Join", fun json => do
      let fields ← json.fields? ["lhs", "rhs", "kind"]
      return .join (← fields.required "lhs" reader.source) (← fields.required "rhs" reader.source)
        (← fields.required "kind" (JoinKind.ofJson? reader.dialect reader.exp))),
    ("Subquery", fun json => do
      let fields ← json.fields? ["select", "alias"]
      return .subquery (← fields.required "select" reader.select)
        (← fields.required "alias" string?)),
    ("TableValuedFunction", fun json => do
      let fields ← json.fields? ["function", "alias"]
      return .function (← fields.required "function" reader.call)
        (← fields.optional "alias" string?)),
    ("CommonTableBlock", fun json => do
      let fields ← json.fields? ["name", "alias"]
      return .commonTable (← fields.required "name" string?)
        (← fields.optional "alias" string?))]

/-- Reads expressions and sources nested less than `bound` deep. -/
def within (dialect : Dialect) : (bound : Nat) → SyntaxReader
  | 0 => ⟨dialect, fun _ => none, fun _ => none⟩
  | bound + 1 =>
    let reader := within dialect bound
    ⟨dialect, variant? reader.expCases, variant? reader.sourceCases⟩

/-- Reads all expressions and sources that a value may contain. -/
def of (dialect : Dialect) (json : Json) : SyntaxReader :=
  within dialect json.depth

end SyntaxReader

/-- An expression. -/
def Exp.ofJson? (dialect : Dialect) (json : Json) : Option Exp :=
  (SyntaxReader.of dialect json).exp json

/-- A source. -/
def Source.ofJson? (dialect : Dialect) (json : Json) : Option Source :=
  (SyntaxReader.of dialect json).source json

end EntitySql
