import EntitySql.Syntax.Clause

/-!
# Expressions and sources

The expressions of a statement, and the sources that a `FROM` clause reads from. Both contain whole
selects, which contain both.
-/

namespace EntitySql

mutual

/-- An expression. -/
inductive Exp where
  | literal (literal : Literal)
  | parameter (parameter : Parameter)
  | property (property : PropertyName)
  | enumerator (enumeration name : String) (value : LiteralValue)
  | cast (operand : Exp) (target : ValueType)
  | arithmetic (lhs : Exp) (op : ArithmeticOperator) (rhs : Exp) (type : ValueType)
    (parenthesized : Bool)
  | sign (op : SignOperator) (operand : Exp) (type : ValueType)
  | call (call : FunctionCall Exp)
  | case (branches : List (CaseBranch Exp)) (otherwise : Option Exp) (type : ValueType)
  | iif (condition consequent alternative : Exp) (type : ValueType)
  | navigation (value : NavigationValue Exp)
  | extractProperty (aliasName access : String) (type : ValueType)
  | extractInstance (aliasName : String)
  | subquery (select : Select Exp Source)
  | list (values : List Exp)
  | typeList (entries : List TypeEntry)
  | window (call : FunctionCall Exp) (filter : Option Exp) (overWindow : WindowOver Exp)
  | boolean (lhs : Exp) (op : BooleanOperator) (rhs : Exp) (parenthesized : Bool)
  | not (operand : Exp) (parenthesized : Bool)
  | between (operand lower upper : Exp) (negated : Bool)
  | like (operand pattern : Exp) (escape : Option Exp) (negated : Bool)
  | quantified (operand : Exp) (op : ComparisonOperator) (quantifier : Quantifier)
    (select : Select Exp Source)
  | subqueryTest (test : SubqueryTest) (select : Select Exp Source)

/-- What a `FROM` clause reads from. -/
inductive Source where
  | ofClass (className : ClassName)
  | join (lhs rhs : Source) (kind : JoinKind Exp)
  | subquery (select : Select Exp Source) (aliasName : String)
  | function (call : FunctionCall Exp) (aliasName : Option String)
  /-- A table that a `WITH` clause defines. -/
  | commonTable (name : String) (aliasName : Option String)

end

instance : Inhabited Exp := ⟨.literal (.ofValue .null)⟩

namespace Exp

/-- The type of the values of an expression. A subquery has the type of its first item. -/
def type : Exp → ValueType
  | .literal l => l.type
  | .parameter p => p.type
  | .property p => p.type
  | .enumerator _ _ (.string _) => .primitive .string
  | .enumerator _ _ _ => .primitive .integer
  | .cast _ target => target
  | .arithmetic _ _ _ type _ => type
  | .sign _ _ type => type
  | .call c => c.type
  | .case _ _ type => type
  | .iif _ _ _ type => type
  | .navigation n => n.property.type
  | .extractProperty _ _ type => type
  | .extractInstance _ => .primitive .string
  | .subquery ⟨⟨_, ⟨exp, _, _⟩ :: _, _, _, _, _, _, _, _⟩, _⟩ => exp.type
  | .subquery ⟨⟨_, [], _, _, _, _, _, _, _⟩, _⟩ => .unknown
  | .list _ | .typeList _ => .unknown
  | .window c _ _ => c.type
  | .boolean .. | .not .. | .between .. | .like .. | .quantified .. | .subqueryTest .. =>
    .primitive .boolean

/-- Whether the expression is the constant `NULL`. -/
def isNull : Exp → Bool
  | .literal ⟨.null, _, _⟩ => true
  | _ => false

/-- Whether the expression was written in parentheses. -/
def isParenthesized : Exp → Bool
  | .literal l => l.parenthesized
  | .arithmetic _ _ _ _ parenthesized => parenthesized
  | .boolean _ _ _ parenthesized => parenthesized
  | .not _ parenthesized => parenthesized
  | _ => false

end Exp

namespace Source

/-- The class name furthest to the right in a join, or the one that stands alone. -/
def lastClass? : Source → Option ClassName
  | .ofClass className => some className
  | .join _ rhs _ => rhs.lastClass?
  | _ => none

end Source

end EntitySql
