import EntitySql.Json.Record
import EntitySql.Lowering.Statement

/-!
# Options and results in JSON
-/

namespace EntitySql

open Json (bool? list? string? uint64? variant?)

namespace Options

/-- The JSON form of options. -/
def toJson (options : Options) : Json :=
  .object [("disabledFunctions", .strings options.disabledFunctions.toList),
    ("experimentalFeatures", .bool options.experimental),
    ("optimizeNestedSelectJoins", .bool options.pruneNestedViews),
    ("maxExpressionDepth", .int options.maxDepth.toNat)]

/-- Reads options. -/
def ofJson? (json : Json) : Option Options := do
  let fields ← json.fields? ["disabledFunctions", "experimentalFeatures",
    "optimizeNestedSelectJoins", "maxExpressionDepth"]
  return ⟨.ofList (← fields.defaulted "disabledFunctions" [] (list? string?)),
    ← fields.defaulted "experimentalFeatures" default.experimental bool?,
    ← fields.defaulted "optimizeNestedSelectJoins" default.pruneNestedViews bool?,
    ← fields.defaulted "maxExpressionDepth" default.maxDepth uint64?⟩

end Options

/-- The JSON form of how a parameter is known. -/
def ParameterKey.toJson : ParameterKey → Json
  | .named name => .variant "Named" (.string name)
  | .positional index => .variant "Positional" (.int index.toNat)

/-- The JSON form of a parameter with its database names. -/
def ParameterBinding.toJson (binding : ParameterBinding) : Json :=
  .object [("key", binding.key.toJson), ("native_names", .strings binding.nativeNames)]

/-- The JSON form of the parameters of a statement. -/
def ParameterMap.toJson (map : ParameterMap) : Json :=
  .object [("bindings", .array (map.bindings.map ParameterBinding.toJson))]

/-- The JSON form of a lowered statement. -/
def LoweredStatement.toJson (statement : LoweredStatement) : Json :=
  .object [("sql", .string statement.sql), ("parameters", statement.parameters.toJson)]

end EntitySql
