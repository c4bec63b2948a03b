import EntitySql.Catalog.Error
import EntitySql.Issue
import EntitySql.Parameter
import EntitySql.Sql.Anchor
import EntitySql.Syntax.Operator

/-!
# Why lowering fails

A statement can be at fault: its author can mend it, and every fault is reported as an issue. The
tree of the statement can be one that no statement has, which is a violation and never reported. Or
the catalog has no answer.
-/

namespace EntitySql

/-- What is wrong with a statement. -/
inductive Fault where
  | betweenWidths (operand lower upper : Nat)
  | castTarget (target : ValueType)
  | castWidth (columns : Nat) (target : PrimitiveType)
  | naturalJoin
  | disabledFunction (name : String)
  | navigationId (role : String)
  | uniqueSubquery
  | joinUsing
  | notNavigation (path : String)
  | navigationWithoutFrom (path : String)
  | severalColumns (role : String) (columns : Nat)
  | classWithoutStorage (name : String)
  | polymorphicQuery (className : String)
  | polymorphicTarget (kind : StatementKind) (className : String)
  | tooDeep (limit : Nat)
  | windowFunctionWithoutOver (name : String)
  | experimentalFunction (name : String)
  | compoundQuantified
  | notOnConnection (kind : StatementKind)
  | argumentCount (name : String) (count : Nat)
  | tableFunctionOutsideFrom (name : String)
  | frameBounds
  | relationshipOperands
  | notRelationship (name : String)
  | relationshipDirection (name : String) (direction : JoinDirection)
  | partitionKey
  | insertCount (properties values : Nat)
  | deleteSpansTables (className : String) (tables : List String)
  | notFinite (text : String)
  | notWindowFunction (name : String)

namespace Fault

/-- The issue under which the fault is reported. -/
def id : Fault → IssueId
  | .betweenWidths .. => .invalidBetweenOperands
  | .castTarget _ | .castWidth .. => .unsupportedCastTarget
  | .naturalJoin => .naturalJoinUnsupported
  | .disabledFunction _ => .disabledFunction
  | .navigationId _ => .invalidNavigationId
  | .uniqueSubquery => .uniqueSubqueryUnsupported
  | .joinUsing => .joinUsingUnsupported
  | .notNavigation _ => .invalidNavigationProperty
  | .navigationWithoutFrom _ => .navigationRequiresFrom
  | .severalColumns .. => .multiColumnOperand
  | .classWithoutStorage _ => .classNotUsable
  | .polymorphicQuery _ | .polymorphicTarget .. => .polymorphismNotAllowed
  | .tooDeep _ => .expressionTooDeep
  | .windowFunctionWithoutOver _ => .windowFunctionWithoutOver
  | .experimentalFunction _ => .experimentalFeatureDisabled
  | .compoundQuantified => .compoundQuantifiedSubquery
  | .notOnConnection _ => .statementNotAllowedOnConnection
  | .argumentCount .. => .invalidFunctionArguments
  | .tableFunctionOutsideFrom _ => .tableValuedFunctionOutsideFrom
  | .frameBounds => .invalidFrameBound
  | .relationshipOperands | .notRelationship _ | .relationshipDirection .. =>
    .invalidRelationshipJoin
  | .partitionKey => .invalidPartitionColumn
  | .insertCount .. => .insertValueCountMismatch
  | .deleteSpansTables .. => .polymorphicDmlSpansTables
  | .notFinite _ => .invalidLiteral
  | .notWindowFunction _ => .notAWindowFunction

/-- What the fault is about. -/
def message : Fault → String
  | .betweenWidths operand lower upper =>
    s!"BETWEEN operands have different column counts ({operand}, {lower}, {upper})"
  | .castTarget target => "CAST target " ++ target.shown ++ " must be a primitive type"
  | .castWidth columns target =>
    "Cannot cast a " ++ toString columns ++ "-column value to " ++ target.name ++ ", which has "
      ++ toString target.columnCount ++ " columns"
  | .naturalJoin => "NATURAL JOIN is not supported"
  | .disabledFunction name => s!"Function '{name}' is disabled"
  | .navigationId role => s!"Navigation {role} must be a positive integer"
  | .uniqueSubquery => "UNIQUE subquery tests are not supported"
  | .joinUsing => "JOIN ... USING (columns) is not supported"
  | .notNavigation path => s!"'{path}' is not a navigation property"
  | .navigationWithoutFrom path =>
    s!"Navigation value '{path}' references a property but the statement has no FROM clause"
  | .severalColumns role columns =>
    s!"{role} must be a single-column value, found {columns} columns"
  | .classWithoutStorage name => s!"Class '{name}' has no storage and cannot be used in ECSQL"
  | .polymorphicQuery className =>
    s!"Class '{className}' cannot be queried polymorphically; use ONLY"
  | .polymorphicTarget kind className =>
    kind.name ++ " target '" ++ className ++ "' must be an ONLY class reference"
  | .tooDeep limit => s!"Expression nesting exceeds the limit of {limit}"
  | .windowFunctionWithoutOver name => s!"Window function '{name}' requires an OVER clause"
  | .experimentalFunction name =>
    s!"Table-valued function '{name}' requires experimental features"
  | .compoundQuantified => "ALL/ANY/SOME requires a single SELECT, not a compound select"
  | .notOnConnection kind =>
    kind.name ++ " statements are only allowed on the primary connection"
  | .argumentCount name count => s!"Function '{name}' does not accept {count} argument(s)"
  | .tableFunctionOutsideFrom name => s!"Table-valued function '{name}' is only valid in FROM"
  | .frameBounds => "Window frame starts after it ends"
  | .relationshipOperands => "Relationship joins require class names on both sides"
  | .notRelationship name => s!"'{name}' is not a relationship class"
  | .relationshipDirection name direction =>
    "Relationship '" ++ name ++ "' does not connect the joined classes in the " ++ direction.name
      ++ " direction"
  | .partitionKey => "PARTITION BY accepts property references only"
  | .insertCount properties values =>
    s!"INSERT lists {properties} properties but {values} values"
  | .deleteSpansTables className tables =>
    "Polymorphic DELETE of '" ++ className ++ "' spans tables " ++ ", ".intercalate tables
  | .notFinite text => s!"'{text}' is not a valid numeric literal"
  | .notWindowFunction name => s!"'{name}' cannot be used with OVER"

/-- The issue that reports the fault. -/
def issue (fault : Fault) : Issue :=
  ⟨.error, fault.id.category, fault.id, fault.message⟩

end Fault

/-- A property that every tree of a statement has, and this one does not. -/
inductive Violation where
  | misplacedTypeList
  | typeListOperator (op : BooleanOperator)
  | emptyTypeList
  | emptyOperand (role : String)
  | operandWidths (lhs rhs : Nat)
  | parameter (conflict : ParameterConflict)
  | unnamedParameter (index : UInt32)
  | anchor (error : Sql.AnchorError)
  | anchorNotTaken
  | openFrames (count : Nat)
  | emptyQuantifiedList
  | quantifiedWidths (operand selected : Nat)
  | noStorage (id : ClassId)
  | noColumns (path : String)
deriving DecidableEq

/-- What the violation is about. -/
def Violation.message : Violation → String
  | .misplacedTypeList => "type list is only valid as the right operand of IS / IS NOT"
  | .typeListOperator op => "type list used with operator " ++ op.sql
  | .emptyTypeList => "type list has no entries"
  | .emptyOperand role => s!"{role} lowered to an empty snippet list"
  | .operandWidths lhs rhs => s!"operand snippet counts differ: {lhs} vs {rhs}"
  | .parameter conflict => conflict.message
  | .unnamedParameter index =>
    "parameter " ++ toString index.toNat ++ " must be named before INSERT/UPDATE lowering"
  | .anchor error => error.message
  | .anchorNotTaken => "quantified subquery was lowered without taking its anchor"
  | .openFrames count => s!"{count} capture frame(s) left open"
  | .emptyQuantifiedList => "quantified subquery has an empty select list"
  | .quantifiedWidths operand selected =>
    s!"quantified operand has {operand} columns, subquery selects {selected}"
  | .noStorage id => "class " ++ id.text ++ " has no storage table"
  | .noColumns path => s!"property '{path}' has no columns"

/-- Why lowering fails. -/
inductive LoweringError where
  | invalid (fault : Fault)
  | internal (violation : Violation)
  | catalog (error : CatalogError)

/-- How lowering ends. -/
inductive Status where
  | success
  | invalid
  | error
deriving DecidableEq

/-- The name of the status. -/
def Status.name : Status → String
  | .success => "Success"
  | .invalid => "InvalidECSql"
  | .error => "Error"

namespace LoweringError

/-- What the failure is about. -/
def message : LoweringError → String
  | .invalid fault => "Invalid ECSQL: " ++ fault.message
  | .internal violation => "Internal lowering error: " ++ violation.message
  | .catalog error => error.message

/-- How lowering ends with this failure. -/
def status : LoweringError → Status
  | .invalid _ => .invalid
  | .internal _ | .catalog _ => .error

end LoweringError

end EntitySql
