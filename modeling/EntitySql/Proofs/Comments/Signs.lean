import EntitySql.Proofs.Names

/-!
# Signs

A sign is written right in front of its operand, and two minus signs in a row begin a comment.
`Exp.leadsWithMinus` tells from the syntax whether an expression is written with a minus sign at its
start. `SignsApart` asks that no minus sign stands in front of such an expression.
-/

namespace EntitySql

/-- Whether the constant is written with a minus sign. -/
def LiteralValue.isNegative : LiteralValue → Bool
  | .integer value => value.toInt < 0
  | .double value => value.negative
  | .null | .boolean _ | .string _ | .date _ | .timestamp _ => false

/-- Whether the expression is written with a minus sign at its start. -/
def Exp.leadsWithMinus : Exp → Bool
  | .literal l => !l.parenthesized && l.value.isNegative
  | .enumerator _ _ value => value.isNegative
  | .sign op _ _ => op = .minus
  | .arithmetic lhs _ _ _ parenthesized => !parenthesized && lhs.leadsWithMinus
  | .boolean lhs _ _ parenthesized => !parenthesized && lhs.leadsWithMinus
  | .between operand _ _ _ => operand.leadsWithMinus
  | .like operand _ _ _ => operand.leadsWithMinus
  -- a cast to the type that the operand has already is not written
  | .cast operand target =>
    operand.type.primitive? = target.primitive? && operand.leadsWithMinus
  -- both columns of a navigation value would get the sign
  | .navigation ⟨_, id, none, _⟩ => id.leadsWithMinus
  | .navigation ⟨_, id, some relationship, _⟩ => id.leadsWithMinus || relationship.leadsWithMinus
  | _ => false

/-- A navigation value leads with a minus sign if one of its columns does. -/
theorem Exp.leadsWithMinus_navigation (value : NavigationValue Exp) :
    (Exp.navigation value).leadsWithMinus
      = (value.id.leadsWithMinus || value.relationship.any Exp.leadsWithMinus) := by
  obtain ⟨property, id, relationship, aliasName⟩ := value
  cases relationship with
  | none => simp [leadsWithMinus]
  | some relationship => simp [leadsWithMinus]

/-- The node is not a minus sign in front of another one. -/
def Node.SignApart : Node → Prop
  | .exp (.sign .minus operand _) => operand.leadsWithMinus = false
  | _ => True

/-- No minus sign stands in front of another one, in a node and below it. -/
def Node.SignsApart (n : Node) : Prop :=
  ∀ m : Node, m.Within n → m.SignApart

/-- Signs are apart in a node if its own one is and those in its parts are. -/
theorem Node.signsApart_iff {n : Node} :
    n.SignsApart ↔ n.SignApart ∧ ∀ m ∈ n.parts, m.SignsApart :=
  forall_within_iff

/-- No minus sign stands in front of another one in a statement. -/
def Statement.SignsApart (statement : Statement) : Prop :=
  ∀ n ∈ statement.nodes, n.SignsApart

end EntitySql
