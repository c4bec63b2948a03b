import EntitySql.Function.Registry
import EntitySql.Proofs.Syntax.Calls
import EntitySql.Proofs.Syntax.Map

/-!
# The parameters that are lowered with a statement

`Statement.parameters` lists the parameters of a statement in the order in which they are lowered,
each as often as it stands there. Almost all parts of a statement are lowered. The exceptions are
the arguments of a call for which a star stands, and those of a function that is written without
arguments. The sources of a select are lowered before its clauses.
-/

namespace EntitySql

variable {α β : Type}

/-- Whether a call of the function is written with its arguments. -/
def FunctionDef.writesArguments (function : FunctionDef) : Bool :=
  match function.form with
  | .plain | .aggregatePredicate _ => true
  | .julianDay => false

/-- The arguments of a call that are lowered: none if a star stands for them, and none if the
function is written without arguments. -/
def FunctionCall.writtenArgs (functions : Registry) (c : FunctionCall α) : List α :=
  if c.star || (functions.find? c.name).any (!·.writesArguments) then [] else c.args

/-- Only arguments are written. -/
theorem FunctionCall.writtenArgs_subset (functions : Registry) (c : FunctionCall α) :
    c.writtenArgs functions ⊆ c.args := by
  rw [writtenArgs]
  split
  · exact List.nil_subset _
  · exact List.Subset.refl _

namespace Node

variable {functions : Registry} {n : Node} {p : Parameter}

/-- The parts of a node that are lowered, in the order in which they are. -/
def lowered (functions : Registry) : Node → List Node
  | .exp (.call c) | .source (.function c _) => (c.writtenArgs functions).map .exp
  | .exp (.window c filter overWindow) =>
    (c.writtenArgs functions ++ filter.toList ++ overWindow.exps).map .exp
  | .core c => c.sources.map .source ++ c.exps.map .exp
  | n => n.parts

/-- Only parts of a node are lowered for it. -/
theorem lowered_subset (functions : Registry) (n : Node) : n.lowered functions ⊆ n.parts := by
  have hargs (c : FunctionCall Exp) (l : List Exp) :
      (c.writtenArgs functions ++ l).map Node.exp ⊆ (c.args ++ l).map Node.exp :=
    List.map_subset _ (List.append_subset.2
      ⟨fun _ ha => List.mem_append_left _ (c.writtenArgs_subset functions ha),
        List.subset_append_right ..⟩)
  fun_cases lowered functions n with
  | case1 c => exact List.map_subset _ (c.writtenArgs_subset functions)
  | case2 c aliasName => exact List.map_subset _ (c.writtenArgs_subset functions)
  | case3 c filter overWindow =>
    rw [List.append_assoc]
    show _ ⊆ ((c.args ++ filter.toList ++ overWindow.exps).map Node.exp)
    rw [List.append_assoc]
    exact hargs c _
  | case4 c => exact fun m hm => (List.perm_append_comm.mem_iff).1 hm
  | case5 => exact List.Subset.refl _

/-- In a node and below it, calls are written with their arguments. -/
def WritesArguments (functions : Registry) (n : Node) : Prop :=
  ∀ m : Node, m.Within n → ∀ c ∈ m.ownCalls, c.writtenArgs functions = c.args

/-- All parts are lowered unless a call leaves out its arguments. -/
theorem subset_lowered (h : ∀ c ∈ n.ownCalls, c.writtenArgs functions = c.args) :
    n.parts ⊆ n.lowered functions := by
  fun_cases lowered functions n with
  | case1 c => rw [h c (List.mem_singleton_self c)]; exact List.Subset.refl _
  | case2 c aliasName => rw [h c (List.mem_singleton_self c)]; exact List.Subset.refl _
  | case3 c filter overWindow =>
    rw [h c (List.mem_singleton_self c)]
    exact List.Subset.refl _
  | case4 c => exact fun m hm => (List.perm_append_comm.mem_iff).1 hm
  | case5 => exact List.Subset.refl _

/-- The parameter that a node is. -/
def ownParameters : Node → List Parameter
  | .exp (.parameter p) => [p]
  | .exp _ | .source _ | .core _ | .select _ => []

/-- The parameters that are lowered with a node, in the order in which they are. -/
def parameters (functions : Registry) (n : Node) : List Parameter :=
  n.ownParameters ++ (n.lowered functions).attach.flatMap fun m => m.1.parameters functions
termination_by sizeOf n
decreasing_by exact sizeOf_lt_of_mem_parts (lowered_subset functions n m.2)

/-- The parameters of a node are its own ones and then those of what is lowered for it. -/
theorem parameters_eq (functions : Registry) (n : Node) :
    n.parameters functions
      = n.ownParameters ++ (n.lowered functions).flatMap (parameters functions) := by
  rw [parameters, List.flatMap_subtype fun _ _ => rfl, List.unattach_attach]

/-- Only a parameter has itself as its own parameter. -/
theorem eq_of_mem_ownParameters (h : p ∈ n.ownParameters) : n = .exp (.parameter p) := by
  unfold ownParameters at h
  split at h
  next q =>
    obtain rfl := List.mem_singleton.1 h
    rfl
  all_goals cases h

/-- A parameter that is lowered with a node stands in it. -/
theorem within_of_mem_parameters (h : p ∈ n.parameters functions) :
    (Node.exp (.parameter p)).Within n := by
  induction n using Node.induction with
  | h n ih =>
    rw [parameters_eq, List.mem_append, List.mem_flatMap] at h
    rcases h with h | ⟨m, hm, h⟩
    · rw [eq_of_mem_ownParameters h]
      exact .self
    · exact .part (lowered_subset functions n hm) (ih m (lowered_subset functions n hm) h)

/-- If calls write their arguments, the parameters of a node are those that stand in it. -/
theorem mem_parameters_iff (h : n.WritesArguments functions) :
    p ∈ n.parameters functions ↔ (Node.exp (.parameter p)).Within n := by
  refine ⟨within_of_mem_parameters, fun hp => ?_⟩
  induction hp with
  | self =>
    rw [parameters_eq]
    exact List.mem_append_left _ (List.mem_singleton_self p)
  | @part k n hk _ ih =>
    have hlowered := subset_lowered (h n .self) hk
    rw [parameters_eq, List.mem_append, List.mem_flatMap]
    exact .inr ⟨k, hlowered, ih fun m hm => h m (.part hk hm)⟩

end Node

namespace Statement

/-- The parameters that are lowered with a statement, in the order in which they are. -/
def parameters (functions : Registry) (statement : Statement) : List Parameter :=
  statement.nodes.flatMap (Node.parameters functions)

/-- In a statement, calls are written with their arguments. -/
def WritesArguments (functions : Registry) (statement : Statement) : Prop :=
  ∀ n ∈ statement.nodes, n.WritesArguments functions

/-- If all calls are written with their arguments, the parameters that are lowered are those that
stand in the statement. -/
theorem mem_parameters_iff {functions : Registry} {statement : Statement} {p : Parameter}
    (h : statement.WritesArguments functions) :
    p ∈ statement.parameters functions ↔ statement.Mentions p := by
  rw [parameters, List.mem_flatMap, Mentions]
  exact exists_congr fun n => and_congr_right fun hn => Node.mem_parameters_iff (h n hn)

end Statement

end EntitySql
