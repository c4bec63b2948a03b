/-!
# Issues

Every reason for which a statement can be refused has a stable number and belongs to a category.
-/

namespace EntitySql

/-- How serious an issue is. -/
inductive Severity where
  | info
  | warning
  | error
deriving DecidableEq

/-- The name of the severity. -/
def Severity.name : Severity → String
  | .info => "Info"
  | .warning => "Warning"
  | .error => "Error"

/-- What has to be changed to remove an issue. -/
inductive IssueCategory where
  /-- The statement itself. -/
  | query
  /-- The way the schema is used. -/
  | schema
  /-- The options. -/
  | configuration
deriving DecidableEq

/-- The name of the category. -/
def IssueCategory.name : IssueCategory → String
  | .query => "Query"
  | .schema => "Schema"
  | .configuration => "Configuration"

/-- The reasons for which a statement can be refused. -/
inductive IssueId where
  | invalidBetweenOperands
  | unsupportedCastTarget
  | naturalJoinUnsupported
  | disabledFunction
  | invalidNavigationId
  | uniqueSubqueryUnsupported
  | joinUsingUnsupported
  | invalidNavigationProperty
  | navigationRequiresFrom
  | multiColumnOperand
  | classNotUsable
  | polymorphismNotAllowed
  | expressionTooDeep
  | windowFunctionWithoutOver
  | experimentalFeatureDisabled
  | compoundQuantifiedSubquery
  | statementNotAllowedOnConnection
  | invalidFunctionArguments
  | tableValuedFunctionOutsideFrom
  | invalidFrameBound
  | invalidRelationshipJoin
  | invalidPartitionColumn
  | insertValueCountMismatch
  | polymorphicDmlSpansTables
  | invalidLiteral
  | notAWindowFunction
deriving DecidableEq

namespace IssueId

/-- The name of the issue. -/
def name : IssueId → String
  | .invalidBetweenOperands => "InvalidBetweenOperands"
  | .unsupportedCastTarget => "UnsupportedCastTarget"
  | .naturalJoinUnsupported => "NaturalJoinUnsupported"
  | .disabledFunction => "DisabledFunction"
  | .invalidNavigationId => "InvalidNavigationId"
  | .uniqueSubqueryUnsupported => "UniqueSubqueryUnsupported"
  | .joinUsingUnsupported => "JoinUsingUnsupported"
  | .invalidNavigationProperty => "InvalidNavigationProperty"
  | .navigationRequiresFrom => "NavigationRequiresFrom"
  | .multiColumnOperand => "MultiColumnOperand"
  | .classNotUsable => "ClassNotUsable"
  | .polymorphismNotAllowed => "PolymorphismNotAllowed"
  | .expressionTooDeep => "ExpressionTooDeep"
  | .windowFunctionWithoutOver => "WindowFunctionWithoutOver"
  | .experimentalFeatureDisabled => "ExperimentalFeatureDisabled"
  | .compoundQuantifiedSubquery => "CompoundQuantifiedSubquery"
  | .statementNotAllowedOnConnection => "StatementNotAllowedOnConnection"
  | .invalidFunctionArguments => "InvalidFunctionArguments"
  | .tableValuedFunctionOutsideFrom => "TableValuedFunctionOutsideFrom"
  | .invalidFrameBound => "InvalidFrameBound"
  | .invalidRelationshipJoin => "InvalidRelationshipJoin"
  | .invalidPartitionColumn => "InvalidPartitionColumn"
  | .insertValueCountMismatch => "InsertValueCountMismatch"
  | .polymorphicDmlSpansTables => "PolymorphicDmlSpansTables"
  | .invalidLiteral => "InvalidLiteral"
  | .notAWindowFunction => "NotAWindowFunction"

/-- All issues, in the order of their numbers. -/
def all : List IssueId :=
  [.invalidBetweenOperands, .unsupportedCastTarget, .naturalJoinUnsupported, .disabledFunction,
    .invalidNavigationId, .uniqueSubqueryUnsupported, .joinUsingUnsupported,
    .invalidNavigationProperty, .navigationRequiresFrom, .multiColumnOperand, .classNotUsable,
    .polymorphismNotAllowed, .expressionTooDeep, .windowFunctionWithoutOver,
    .experimentalFeatureDisabled, .compoundQuantifiedSubquery, .statementNotAllowedOnConnection,
    .invalidFunctionArguments, .tableValuedFunctionOutsideFrom, .invalidFrameBound,
    .invalidRelationshipJoin, .invalidPartitionColumn, .insertValueCountMismatch,
    .polymorphicDmlSpansTables, .invalidLiteral, .notAWindowFunction]

/-- The number of the issue, counted from one. -/
def code (id : IssueId) : Nat :=
  all.idxOf id + 1

/-- The issue with this name. -/
def ofName? (name : String) : Option IssueId :=
  all.find? (·.name = name)

/-- The category of the issue. -/
def category : IssueId → IssueCategory
  | .classNotUsable | .polymorphismNotAllowed | .invalidNavigationProperty
  | .invalidRelationshipJoin | .polymorphicDmlSpansTables => .schema
  | .disabledFunction | .experimentalFeatureDisabled | .statementNotAllowedOnConnection =>
    .configuration
  | _ => .query

end IssueId

/-- A reported issue. -/
structure Issue where
  severity : Severity
  category : IssueCategory
  id : IssueId
  message : String
deriving DecidableEq

end EntitySql
