import EntitySql.Lowering.Basic
import EntitySql.Proofs.Syntax.Parameters

/-!
# What happens while a statement is lowered

Most of lowering leaves no trace but its result. Binding a parameter lasts, and calling a function
may not be allowed. `Node.events` lists these for a node, in their order, and `Statement.events` for
a statement. If no text stands in for a statement, the parameters among the events are those that
are lowered with it. And if nothing is passed over, every call is among the events, or one of the
calls has arguments that its function does not take.
-/

namespace EntitySql

/-- What happens on the way that lasts or may not be allowed. -/
inductive Event where
  | binds (parameter : Parameter)
  | calls (name : String)
  /-- The statement is at fault, so that nothing happens afterwards. -/
  | fails

/-- The parameter that is bound. -/
def Event.parameter? : Event → Option Parameter
  | .binds parameter => some parameter
  | .calls _ | .fails => none

/-- No part of a statement is passed over: no text stands in for a statement, and a function that is
written without its arguments has none. -/
structure Environment.Complete (env : Environment) : Prop where
  texts : env.texts = none
  julianDay : ∀ function ∈ env.functions.functions, function.form = .julianDay →
    ∀ count, function.accepts count = true → count = 0

namespace FunctionCall

variable {functions : Registry} {c : FunctionCall Exp}

/-- How many arguments a call has; a star counts as one. -/
def argumentCount {α : Type} (c : FunctionCall α) : Nat :=
  if c.star then 1 else c.args.length

/-- The function is written without arguments, but called with some that it does not take. -/
def isUnacceptable (functions : Registry) (c : FunctionCall Exp) : Bool :=
  (functions.find? c.name).any fun function =>
    !function.writesArguments && !function.accepts c.argumentCount

/-- What happens with a call, before its arguments. -/
def events (functions : Registry) (c : FunctionCall Exp) : List Event :=
  .calls c.name :: if c.isUnacceptable functions then [.fails] else []

/-- A call binds no parameters itself. -/
theorem parameters_events (functions : Registry) (c : FunctionCall Exp) :
    (c.events functions).filterMap Event.parameter? = [] := by
  rw [events]
  split <;> rfl

/-- The arguments of a call are all written, unless the function does not take them. -/
theorem writtenArgs_eq {env : Environment} (h : env.Complete) (hstar : c.star = true → c.args = []) :
    c.writtenArgs env.functions = c.args ∨ c.isUnacceptable env.functions = true := by
  by_cases hstar' : c.star = true
  · rw [hstar hstar', writtenArgs, hstar hstar', ite_self]
    exact .inl rfl
  · have hcount : c.argumentCount = c.args.length := if_neg hstar'
    cases hfind : env.functions.find? c.name with
    | none =>
      rw [writtenArgs, hfind, Bool.eq_false_of_not_eq_true hstar']
      exact .inl rfl
    | some function =>
      cases hform : function.form with
      | plain | aggregatePredicate =>
        rw [writtenArgs, hfind, Bool.eq_false_of_not_eq_true hstar', Option.any_some,
          FunctionDef.writesArguments, hform]
        exact .inl rfl
      | julianDay =>
        cases haccepts : function.accepts c.args.length with
        | true =>
          have hnone := List.eq_nil_of_length_eq_zero
            (h.julianDay function (List.mem_of_find?_eq_some hfind) hform _ haccepts)
          rw [writtenArgs, hnone, ite_self]
          exact .inl rfl
        | false =>
          rw [isUnacceptable, hfind, hcount, Option.any_some, FunctionDef.writesArguments, hform,
            haccepts]
          exact .inr rfl

end FunctionCall

namespace Node

variable {env : Environment} {n : Node}

/-- The parts of a node that are lowered, unless a text stands in for the node. -/
def written (env : Environment) : Node → List Node
  | .select w => if env.texts.isSome then [] else (Node.select w).lowered env.functions
  | .exp e => (Node.exp e).lowered env.functions
  | .source s => (Node.source s).lowered env.functions
  | .core c => (Node.core c).lowered env.functions

/-- If no texts stand in for selects, all that is lowered is written. -/
theorem written_eq_lowered (h : env.texts = none) (n : Node) :
    n.written env = n.lowered env.functions := by
  cases n with
  | select w => rw [written, h]; rfl
  | exp | source | core => rfl

/-- Only parts of a node are written for it. -/
theorem written_subset (env : Environment) (n : Node) : n.written env ⊆ n.parts := by
  refine List.Subset.trans ?_ (lowered_subset env.functions n)
  cases n with
  | select w =>
    rw [written]
    split
    · exact List.nil_subset _
    · exact List.Subset.refl _
  | exp | source | core => exact List.Subset.refl _

/-- What happens with a node by itself. -/
def ownEvents (functions : Registry) (n : Node) : List Event :=
  n.ownParameters.map .binds ++ n.ownCalls.flatMap (·.events functions)

/-- What happens with a node, and then with its parts. -/
def events (env : Environment) (n : Node) : List Event :=
  n.ownEvents env.functions ++ (n.written env).attach.flatMap fun m => m.1.events env
termination_by sizeOf n
decreasing_by exact sizeOf_lt_of_mem_parts (written_subset env n m.2)

/-- The events of a node are its own ones and then those of what is written for it. -/
theorem events_eq (env : Environment) (n : Node) :
    n.events env = n.ownEvents env.functions ++ (n.written env).flatMap (events env) := by
  rw [events, List.flatMap_subtype fun _ _ => rfl, List.unattach_attach]

/-- The parameters among the events are those that are lowered with the node. -/
theorem parameters_events (h : env.texts = none) (n : Node) :
    (n.events env).filterMap Event.parameter? = n.parameters env.functions := by
  induction n using Node.induction with
  | h n ih =>
    have hown : (n.ownEvents env.functions).filterMap Event.parameter? = n.ownParameters := by
      rw [ownEvents, List.filterMap_append, List.filterMap_map, List.filterMap_flatMap]
      simp only [FunctionCall.parameters_events]
      simp [Function.comp_def, Event.parameter?]
    have hparts : (n.written env).flatMap (fun m => (m.events env).filterMap Event.parameter?)
        = (n.lowered env.functions).flatMap (parameters env.functions) := by
      rw [written_eq_lowered h]
      exact List.flatMap_congr fun m hm => ih m (lowered_subset env.functions n hm)
    rw [events_eq, parameters_eq, List.filterMap_append, hown, List.filterMap_flatMap, hparts]

/-- A parameter that is bound stands in the node. -/
theorem within_of_binds {p : Parameter} (h : .binds p ∈ n.events env) :
    (Node.exp (.parameter p)).Within n := by
  induction n using Node.induction with
  | h n ih =>
    rw [events_eq, ownEvents, List.mem_append, List.mem_append] at h
    rcases h with (hown | hcall) | hpart
    · obtain ⟨q, hq, heq⟩ := List.mem_map.1 hown
      obtain rfl := Event.binds.inj heq
      rw [eq_of_mem_ownParameters hq]
      exact .self
    · obtain ⟨c, -, hc⟩ := List.mem_flatMap.1 hcall
      rw [FunctionCall.events] at hc
      split at hc <;> simp at hc
    · obtain ⟨m, hm, hpart⟩ := List.mem_flatMap.1 hpart
      exact .part (written_subset env n hm) (ih m (written_subset env n hm) hpart)

/-- If nothing is passed over, every call happens, or the statement is at fault. -/
theorem events_of_calls {names : String → Prop} (h : env.Complete) (hstars : n.StarsAlone)
    (hcalls : n.Calls names) :
    .fails ∈ n.events env ∨ ∃ name, names name ∧ .calls name ∈ n.events env := by
  obtain ⟨m, hm, c, hc, hname⟩ := hcalls
  -- by induction on the way from the node to the call; a part that is not written is an argument
  -- that its function does not take
  induction hm with
  | self =>
    refine .inr ⟨c.name, hname, ?_⟩
    rw [events_eq]
    exact List.mem_append_left _ (List.mem_append_right _
      (List.mem_flatMap.2 ⟨c, hc, List.mem_cons_self ..⟩))
  | @part k n hk _ ih =>
    by_cases hargs : ∀ c ∈ n.ownCalls, c.writtenArgs env.functions = c.args
    · have hwritten := subset_lowered hargs hk
      rw [← written_eq_lowered h.texts] at hwritten
      have hsub : k.events env ⊆ n.events env := by
        rw [events_eq env n]
        exact fun e he => List.mem_append_right _ (List.mem_flatMap.2 ⟨k, hwritten, he⟩)
      exact (ih (hstars.part hk)).imp (fun he => hsub he) fun ⟨name, hname, he⟩ =>
        ⟨name, hname, hsub he⟩
    · simp only [not_forall] at hargs
      obtain ⟨c', hc', hargs⟩ := hargs
      have hfails := (c'.writtenArgs_eq h (hstars n .self c' hc')).resolve_left hargs
      refine .inl ?_
      rw [events_eq]
      refine List.mem_append_left _ (List.mem_append_right _
        (List.mem_flatMap.2 ⟨c', hc', List.mem_cons_of_mem _ ?_⟩))
      rw [hfails]
      exact List.mem_singleton_self _

end Node

namespace Statement

variable {env : Environment}

/-- What happens while a statement is lowered. -/
def events (env : Environment) (statement : Statement) : List Event :=
  if env.texts.isSome then [] else statement.nodes.flatMap (Node.events env)

/-- The events of a statement are those of its nodes, in their order. -/
theorem events_eq (h : env.texts = none) (statement : Statement) :
    statement.events env = statement.nodes.flatMap (Node.events env) := by
  rw [events, h]
  rfl

/-- Only parameters are bound that the statement mentions. -/
theorem mentions_of_binds {statement : Statement} {p : Parameter}
    (h : .binds p ∈ statement.events env) : statement.Mentions p := by
  rw [events] at h
  split at h
  · cases h
  · obtain ⟨n, hn, hp⟩ := List.mem_flatMap.1 h
    exact ⟨n, hn, Node.within_of_binds hp⟩

/-- The parameters of a statement are bound in the order in which they are written. -/
theorem parameters_events (h : env.texts = none) (statement : Statement) :
    (statement.events env).filterMap Event.parameter? = statement.parameters env.functions := by
  rw [events_eq h, List.filterMap_flatMap, parameters]
  exact List.flatMap_congr fun n _ => Node.parameters_events h n

/-- Every call in a statement happens, or the statement is at fault. -/
theorem events_of_calls {names : String → Prop} {statement : Statement} (h : env.Complete)
    (hstars : statement.StarsAlone) (hcalls : statement.Calls names) :
    .fails ∈ statement.events env ∨ ∃ name, names name ∧ .calls name ∈ statement.events env := by
  obtain ⟨n, hn, hcalls⟩ := hcalls
  have hsub : n.events env ⊆ statement.events env := by
    rw [events_eq h.texts]
    exact fun e he => List.mem_flatMap.2 ⟨n, hn, he⟩
  exact (Node.events_of_calls h (hstars n hn) hcalls).imp (fun he => hsub he)
    fun ⟨name, hname, he⟩ => ⟨name, hname, hsub he⟩

end Statement

end EntitySql
