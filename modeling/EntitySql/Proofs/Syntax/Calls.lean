import EntitySql.Proofs.Names

/-!
# The calls and parameters in a statement

`Node.Calls` says that a function is called somewhere in a node, and `Statement.Mentions` that a
parameter stands somewhere in a statement.
-/

namespace EntitySql

/-! ## Calls -/

/-- The calls that a node makes by itself. -/
def Node.ownCalls : Node → List (FunctionCall Exp)
  | .exp (.call c) | .exp (.window c _ _) | .source (.function c _) => [c]
  | .exp _ | .source _ | .core _ | .select _ => []

/-- A function is called in a node, or somewhere below it, whose name is one of these. -/
def Node.Calls (names : String → Prop) (n : Node) : Prop :=
  ∃ m : Node, m.Within n ∧ ∃ c ∈ m.ownCalls, names c.name

/-- In a node and below it, calls with `*` for an argument have no other arguments. -/
def Node.StarsAlone (n : Node) : Prop :=
  ∀ m : Node, m.Within n → ∀ c ∈ m.ownCalls, c.star = true → c.args = []

/-- Whether stars stand alone in a node, by its own calls and its parts. -/
theorem Node.starsAlone_iff {n : Node} :
    n.StarsAlone
      ↔ (∀ c ∈ n.ownCalls, c.star = true → c.args = []) ∧ ∀ m ∈ n.parts, m.StarsAlone :=
  forall_within_iff

theorem Node.StarsAlone.part {m n : Node} (h : n.StarsAlone) (hm : m ∈ n.parts) : m.StarsAlone :=
  fun k hk => h k (.part hm hk)

/-! ## Statements -/

namespace Statement

/-- A function is called somewhere in a statement whose name is one of these. -/
def Calls (names : String → Prop) (statement : Statement) : Prop :=
  ∃ n ∈ statement.nodes, n.Calls names

/-- In a statement, calls with `*` for an argument have no other arguments. -/
def StarsAlone (statement : Statement) : Prop :=
  ∀ n ∈ statement.nodes, n.StarsAlone

/-- A parameter stands somewhere in a statement. -/
def Mentions (statement : Statement) (p : Parameter) : Prop :=
  ∃ n ∈ statement.nodes, (Node.exp (.parameter p)).Within n

end Statement

end EntitySql
