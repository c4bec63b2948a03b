import EntitySql.Proofs.Parameters.Map
import EntitySql.Proofs.WellFormed

/-!
# One statement after another

Statements that are prepared one after the other share a state. What is left of a statement, also
of one that failed, are its issues and its parameters; everything else is as at the start. The
issues do not matter to the next statement, but the parameters do: its own are added to those that
are there, and a parameter that is there already has to be of the same width again.

This is all that the earlier statements do to the next one. It is prepared as on its own, with its
parameters added to theirs, or it fails at a parameter that one of them has with another width.
-/

namespace EntitySql

/-! ## Parameters -/

namespace ParameterMap

variable {m t : ParameterMap} {key : ParameterKey} {p : Parameter} {names : List String}
  {binds : Parameter → Prop}

/-- The bindings of one map, and then those of another that have other keys. -/
def merge (m t : ParameterMap) : ParameterMap :=
  ⟨m.bindings ++ t.bindings.filter fun b => (m.get? b.key).isNone⟩

/-- Parameters that are in both maps have the same names in them. -/
def Agrees (m t : ParameterMap) : Prop :=
  ∀ key names names', m.get? key = some names → t.get? key = some names' → names = names'

/-- The first map counts. -/
theorem get?_merge : (m.merge t).get? key = (m.get? key).or (t.get? key) := by
  rw [get?, merge, List.find?_append, Option.map_or, List.find?_filter]
  cases hm : m.get? key with
  | some names =>
    rw [← get?, hm]
    rfl
  | none =>
    -- the bindings with this key are among those that are kept
    have hkept : (t.bindings.find? fun b => (m.get? b.key).isNone ∧ decide (b.key = key))
        = t.bindings.find? (·.key = key) := by
      congr 1
      funext b
      by_cases hkey : b.key = key <;> simp [hkey, hm]
    rw [← get?, hm, Option.none_or, hkept, Option.none_or, get?]

theorem merge_empty (m : ParameterMap) : m.merge .empty = m := by
  simp [merge, empty]

/-- A parameter is added to both maps or to none. -/
theorem merge_push : m.merge (t.push p)
    = if (m.get? p.key).isNone then (m.merge t).push p else m.merge t := by
  simp only [merge, push, List.filter_append, List.filter_cons, List.filter_nil]
  split
  · rw [List.append_assoc]
  · rw [List.append_nil]

/-- Maps still agree with one more parameter if it has the same names in both. -/
theorem Agrees.push (h : m.Agrees t)
    (hnames : ∀ names, m.get? p.key = some names → names = p.nativeNames) :
    m.Agrees (t.push p) := by
  intro key names names' hm ht
  rw [get?_push] at ht
  cases hold : t.get? key with
  | some old =>
    rw [hold] at ht
    exact h key names names' hm (hold.trans ht)
  | none =>
    rw [hold, Option.none_or] at ht
    split at ht
    next hkey =>
      subst hkey
      rw [hnames names hm, Option.some.inj ht]
    next => cases ht

/-- Maps still agree when a parameter is bound that has the same names in both. -/
theorem Agrees.bind (h : m.Agrees t)
    (hnames : ∀ names, m.get? p.key = some names → names = p.nativeNames)
    {r : List String × ParameterMap} (hr : t.bind p = .ok r) : m.Agrees r.2 := by
  cases hown : t.get? p.key with
  | none =>
    rw [bind_of_none hown] at hr
    obtain rfl := Except.ok.inj hr
    exact h.push hnames
  | some names =>
    rw [bind_of_some hown] at hr
    split at hr
    · obtain rfl := Except.ok.inj hr
      exact h
    · cases hr

/-- A parameter that occurs after others is bound as without them, if those of them with its key
have its names. -/
theorem bind_merge (h : m.Agrees t)
    (hnames : ∀ names, m.get? p.key = some names → names = p.nativeNames) :
    (m.merge t).bind p = (t.bind p).map fun r => (r.1, m.merge r.2) := by
  cases hown : t.get? p.key with
  | none =>
    have hget : (m.merge t).get? p.key = m.get? p.key := by rw [get?_merge, hown, Option.or_none]
    rw [bind_of_none hown, Except.map, merge_push]
    cases hold : m.get? p.key with
    | none =>
      rw [bind_of_none (hget.trans hold)]
      rfl
    | some names =>
      obtain rfl := hnames names hold
      rw [bind_of_some (hget.trans hold), if_pos p.length_nativeNames]
      rfl
  | some names =>
    have hget : (m.merge t).get? p.key = some names := by
      rw [get?_merge, hown]
      cases hold : m.get? p.key with
      | none => rfl
      | some names' => rw [Option.some_or, h p.key names' names hold hown]
    rw [bind_of_some hget, bind_of_some hown]
    split <;> rfl

/-- A parameter that occurs after others with its key, but another width, is not bound. -/
theorem bind_merge_of_width (hnames : m.get? p.key = some names)
    (hwidth : names.length ≠ p.type.columnCount) :
    (m.merge t).bind p = .error ⟨p.key, names.length, p.type.columnCount⟩ := by
  have hget : (m.merge t).get? p.key = some names := by rw [get?_merge, hnames, Option.some_or]
  rw [bind_of_some hget, if_neg hwidth]

end ParameterMap

/-! ## Runs after other runs -/

/-- The state after earlier statements: their parameters and issues are there as well. -/
def State.resumed (s : State) (m : ParameterMap) (issues : List Issue) : State :=
  { s with parameters := m.merge s.parameters, issues := issues ++ s.issues }

/-- The result is a failure at a parameter that is in a map with another width. -/
def Clashes {α : Type} (binds : Parameter → Prop) (m : ParameterMap)
    (result : Except LoweringError α) : Prop :=
  ∃ p names, binds p ∧ m.get? p.key = some names ∧ names.length ≠ p.type.columnCount
    ∧ result = .error (.internal (.parameter ⟨p.key, names.length, p.type.columnCount⟩))

namespace Composed

open Lowering

variable {α : Type} {events : List Event} {x : Lowering α} {env : Environment}
  {m : ParameterMap} {issues : List Issue} {binds occurs : Parameter → Prop}

/-- What a step adds to the parameters may be bound. -/
theorem boundBy (h : Composed env events x) (hbinds : ∀ p, .binds p ∈ events → binds p)
    {s : State} (hs : s.parameters.BoundBy binds) :
    (x env s).2.parameters.BoundBy binds := by
  induction h generalizing s with
  | basic h _ => rwa [h.parameters]
  | failing h _ _ => rwa [h.parameters]
  | @bind _ _ x next _ _ _ _ ih ihnext =>
    have hfirst := ih (fun p hp => hbinds p (List.mem_append_left _ hp)) hs
    rw [bind_apply]
    rcases hx : x env s with ⟨_ | a, s'⟩ <;> rw [hx] at hfirst
    · exact hfirst
    · exact ihnext a (fun p hp => hbinds p (List.mem_append_right _ hp)) hfirst
  | reading _ _ ih => exact ih hbinds hs
  | checkFunction name =>
    rw [checkFunction_apply]
    split <;> exact hs
  | checkExperimental name =>
    rw [checkExperimental_apply]
    split <;> exact hs
  | bindParameter p =>
    rw [Lowering.bindParameter]
    cases hbind : s.parameters.bind p with
    | error _ => exact hs
    | ok r => exact hs.bind (hbinds p (List.mem_singleton_self _)) hbind
  | nested _ ih =>
    rw [Lowering.nested]
    split
    · exact hs
    · exact ih hbinds hs
  | withScope _ ih => exact ih hbinds hs
  | capture _ ih => exact ih hbinds hs

/-- A step that does not see the parameters runs as without earlier statements. -/
theorem resumed_of_local (h : x.Local) {s : State} (hs : m.Agrees s.parameters) :
    x env (s.resumed m issues) = ((x env s).1, (x env s).2.resumed m issues)
      ∧ m.Agrees (x env s).2.parameters := by
  have hparameters := h.parameters env s
  rw [State.resumed, h.ledger, State.resumed, hparameters]
  exact ⟨rfl, hs⟩

/-- After earlier statements, a step runs as without them, unless it meets a parameter that is there
with another width. -/
theorem run_resumed (h : Composed env events x) (hoccurs : ∀ p, .binds p ∈ events → occurs p)
    (hm : m.BoundBy binds) {s : State} (hs : m.Agrees s.parameters) (issues : List Issue) :
    (x env (s.resumed m issues) = ((x env s).1, (x env s).2.resumed m issues)
        ∧ m.Agrees (x env s).2.parameters)
      ∨ Clashes occurs m (x env (s.resumed m issues)).1 := by
  induction h generalizing s with
  | basic h _ => exact .inl (resumed_of_local h hs)
  | failing h _ _ => exact .inl (resumed_of_local h hs)
  | @bind _ _ x next _ _ _ _ ih ihnext =>
    rcases ih (fun p hp => hoccurs p (List.mem_append_left _ hp)) hs
      with ⟨hsame, hagrees⟩ | ⟨p, names, hp, hnames, hwidth, herror⟩
    · rw [bind_apply, bind_apply, hsame]
      rcases hx : x env s with ⟨error | a, s'⟩ <;> rw [hx] at hagrees
      · exact .inl ⟨rfl, hagrees⟩
      · exact ihnext a (fun p hp => hoccurs p (List.mem_append_right _ hp)) hagrees
    · exact .inr ⟨p, names, hp, hnames, hwidth, bind_error herror⟩
  | reading _ _ ih => exact ih hoccurs hs
  | checkFunction name =>
    rw [checkFunction_apply, checkFunction_apply]
    split
    · exact .inl (resumed_of_local (local_reject _) hs)
    · exact .inl ⟨rfl, hs⟩
  | checkExperimental name =>
    rw [checkExperimental_apply, checkExperimental_apply]
    split
    · exact .inl ⟨rfl, hs⟩
    · exact .inl (resumed_of_local (local_reject _) hs)
  | bindParameter p =>
    have hparameters : (s.resumed m issues).parameters = m.merge s.parameters := rfl
    rw [Lowering.bindParameter, Lowering.bindParameter, hparameters]
    by_cases hclash : ∃ names, m.get? p.key = some names ∧ names.length ≠ p.type.columnCount
    · obtain ⟨names, hnames, hwidth⟩ := hclash
      rw [ParameterMap.bind_merge_of_width hnames hwidth]
      exact .inr ⟨p, names, hoccurs p (List.mem_singleton_self _), hnames, hwidth, rfl⟩
    · have hnames : ∀ names, m.get? p.key = some names → names = p.nativeNames := fun names h =>
        ParameterMap.eq_nativeNames hm h (not_not.1 fun hwidth => hclash ⟨names, h, hwidth⟩)
      rw [ParameterMap.bind_merge hs hnames]
      cases hbind : s.parameters.bind p with
      | error conflict => exact .inl ⟨rfl, hs⟩
      | ok r => exact .inl ⟨rfl, hs.bind hnames hbind⟩
  | @nested _ x _ _ ih =>
    have hdepth : (s.resumed m issues).depth = s.depth := rfl
    rw [Lowering.nested, Lowering.nested, hdepth]
    split
    · exact .inl (resumed_of_local (local_reject _) hs)
    · rcases ih hoccurs (s := { s with depth := s.depth + 1 }) hs with ⟨hsame, hagrees⟩ | hclash
      · refine .inl ⟨?_, hagrees⟩
        rw [State.resumed] at hsame ⊢
        rw [hsame]
        rfl
      · exact .inr hclash
  | @withScope _ scope x _ _ ih =>
    rcases ih hoccurs (s := { s with scopes := scope :: s.scopes }) hs with ⟨hsame, hagrees⟩ | hclash
    · refine .inl ⟨?_, hagrees⟩
      rw [State.resumed] at hsame
      rw [Lowering.withScope, Lowering.withScope, State.resumed, hsame]
      rfl
    · exact .inr hclash
  | @capture x _ _ ih =>
    rcases ih hoccurs (s := { s with buffer := s.buffer.pushFrame }) hs
      with ⟨hsame, hagrees⟩ | ⟨p, names, hp, hnames, hwidth, herror⟩
    · refine .inl ⟨?_, hagrees⟩
      rw [State.resumed] at hsame
      rw [Lowering.capture, Lowering.capture, State.resumed, hsame]
      rfl
    · refine .inr ⟨p, names, hp, hnames, hwidth, ?_⟩
      show (x env _).1.map _ = _
      rw [State.resumed] at herror ⊢
      rw [herror]
      rfl

end Composed

/-! ## Statements -/

/-- The state after statements that were prepared one after the other, also if some failed. -/
def State.after (env : Environment) (statements : List Statement) : State :=
  statements.foldl (fun s statement => (statement.prepare env s).2) .initial

/-- What is there between statements is the state at the start, with parameters and issues. -/
theorem State.eq_resumed {s : State} (hs : s.reset = s) :
    s = State.initial.resumed s.parameters s.issues := by
  have hparameters : s.parameters.merge State.initial.parameters = s.parameters :=
    s.parameters.merge_empty
  have hissues : s.issues ++ State.initial.issues = s.issues := List.append_nil _
  rw [resumed, hparameters, hissues]
  exact hs.symm

/-- After a reset, only the parameters and the issues are left. -/
theorem State.resumed_of_reset {s : State} (hs : s.reset = s) (m : ParameterMap)
    (issues : List Issue) :
    s.resumed m issues
      = { State.initial with
          parameters := m.merge s.parameters
          issues := issues ++ s.issues } := by
  rw [← hs]
  rfl

namespace Statement

variable {statement : Statement} {env : Environment} {s : State}

/-- Preparing a statement leaves no more than a reset would. -/
theorem reset_prepare (hs : s.reset = s) :
    (statement.prepare env s).2.reset = (statement.prepare env s).2 := by
  rw [prepare]
  split
  · rw [← hs]
    rfl
  · rfl

/-- Preparing a statement binds the parameters that it mentions, and no others. -/
theorem boundBy_prepare {binds : Parameter → Prop} (hbinds : ∀ p, statement.Mentions p → binds p)
    (hs : s.parameters.BoundBy binds) :
    (statement.prepare env s).2.parameters.BoundBy binds := by
  rw [prepare]
  split
  · exact hs
  · exact (statement.composed_write_finish env).boundBy
      (fun p hp => hbinds p (mentions_of_binds hp)) hs

/-- After earlier statements, a statement is prepared as without them, or it fails at a parameter
that is there with another width. -/
theorem prepare_resumed {m : ParameterMap} {binds : Parameter → Prop} (hm : m.BoundBy binds)
    (statement : Statement) (env : Environment) (issues : List Issue) :
    statement.prepare env (State.initial.resumed m issues)
        = ((statement.prepare env .initial).1,
          (statement.prepare env .initial).2.resumed m issues)
      ∨ Clashes statement.Mentions m
        (statement.prepare env (State.initial.resumed m issues)).1 := by
  have hstart : m.Agrees State.initial.parameters := by
    intro _ _ _ _ h
    cases h
  rw [prepare, prepare]
  split
  · exact .inl (Composed.resumed_of_local (Lowering.local_reject _) hstart).1
  · rcases (statement.composed_write_finish env).run_resumed (fun _ => mentions_of_binds) hm hstart
      issues with ⟨hsame, -⟩ | hclash
    · rw [hsame]
      exact .inl rfl
    · exact .inr hclash

/-- Whatever statements have been prepared, no more is left than after a reset. -/
theorem reset_after (env : Environment) (earlier : List Statement) :
    (State.after env earlier).reset = State.after env earlier :=
  List.foldlRecOn (motive := fun s : State => s.reset = s) earlier _ rfl
    fun _ hs _ _ => reset_prepare hs

/-- Parameters are bound by the statements that mention them. -/
theorem boundBy_after (env : Environment) (earlier : List Statement) :
    (State.after env earlier).parameters.BoundBy fun p => ∃ e ∈ earlier, e.Mentions p := by
  refine List.foldlRecOn (motive := fun s : State => s.parameters.BoundBy _) earlier _ ?_ ?_
  · intro _ h
    cases h
  · exact fun s hs e he => boundBy_prepare (fun p hp => ⟨e, he, hp⟩) hs

/-- A statement that is prepared after others gives the same result as on its own, and its
parameters are added to those of the others. Or it fails, because it has a parameter that one of the
others has with another width. -/
theorem prepare_after (env : Environment) (earlier : List Statement) (statement : Statement) :
    statement.prepare env (State.after env earlier)
        = ((statement.prepare env .initial).1,
          { State.initial with
            parameters := (State.after env earlier).parameters.merge
              (statement.prepare env .initial).2.parameters
            issues := (State.after env earlier).issues
              ++ (statement.prepare env .initial).2.issues })
      ∨ ∃ e ∈ earlier, ∃ p q, e.Mentions p ∧ statement.Mentions q ∧ p.key = q.key
        ∧ p.type.columnCount ≠ q.type.columnCount
        ∧ (statement.prepare env (State.after env earlier)).1 = .error (.internal
          (.parameter ⟨q.key, p.type.columnCount, q.type.columnCount⟩)) := by
  have hbound := boundBy_after env earlier
  have hafter := State.eq_resumed (reset_after env earlier)
  rcases prepare_resumed hbound statement env (State.after env earlier).issues with hsame | hclash
  · rw [← hafter, State.resumed_of_reset (reset_prepare rfl)] at hsame
    exact .inl hsame
  · obtain ⟨q, names, hq, hnames, hwidth, herror⟩ := hclash
    obtain ⟨p, ⟨e, he, hp⟩, hkey, rfl⟩ := ParameterMap.exists_of_get? hbound hnames
    rw [← hafter] at herror
    rw [p.length_nativeNames] at hwidth herror
    exact .inr ⟨e, he, p, q, hp, hq, hkey, hwidth, herror⟩

end Statement

namespace Sample

/-- A query for a parameter. -/
def parameterQuery (name : String) (type : PrimitiveType) : Statement :=
  queryFor (.parameter ⟨some name, 1, .primitive type⟩) none

/-- Parameters outlive the statement that they are from. A later statement can fail because of them,
and its own parameters are not the only ones in the map afterwards. -/
theorem prepare_after_parameterQuery :
    ((parameterQuery "p" .point2d).prepare (.of catalog .default .builtin) .initial).1.toOption
        = some "SELECT :_ecdb_ecsqlparam_p_col1,:_ecdb_ecsqlparam_p_col2"
      ∧ ((parameterQuery "p" .point2d).prepare (.of catalog .default .builtin)
        (State.after (.of catalog .default .builtin) [parameterQuery "p" .long])).1.toOption = none
      ∧ (State.after (.of catalog .default .builtin) [parameterQuery "q" .long]).parameters.bindings
        = [⟨.named "q", [":_ecdb_ecsqlparam_q_col1"]⟩]
      ∧ (State.after (.of catalog .default .builtin)
        [parameterQuery "p" .long, parameterQuery "q" .long]).parameters.bindings
          = [⟨.named "p", [":_ecdb_ecsqlparam_p_col1"]⟩,
            ⟨.named "q", [":_ecdb_ecsqlparam_q_col1"]⟩] := by
  decide +kernel

end Sample

end EntitySql
