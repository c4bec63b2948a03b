import EntitySql.Lowering.Statement
import EntitySql.Proofs.Syntax.Events

/-!
# What steps of lowering are put together from

However a statement looks, lowering it takes the same few basic steps. Most are `Local`: they see
neither the environment nor the parameters. Others read what is the same in all environments that
`Agree`, check whether something is allowed, bind a parameter, or enclose further steps. `Composed`
says of a step that it is put together from these, so that what holds of the basic steps, and passes
from steps to what they are put together to, holds of all of lowering.

It also lists the parameters that the step binds and the functions that it calls, in their order. If
the step goes well, all of this has happened.
-/

namespace EntitySql

/-- The environments differ at most in what they allow: calls of functions, experimental syntax and
the depth of expressions. -/
structure Environment.Agree (env env' : Environment) : Prop where
  catalog : env'.catalog = env.catalog
  functions : env'.functions = env.functions
  view : env'.view = env.view
  texts : env'.texts = env.texts
  pruneNestedViews : env'.options.pruneNestedViews = env.options.pruneNestedViews

/-- The issues that are reported with a failure. -/
def LoweringError.issues : LoweringError → List Issue
  | .invalid fault => [fault.issue]
  | .internal _ | .catalog _ => []

/-- The issues that are reported with a result. -/
def issuesOf {α : Type} : Except LoweringError α → List Issue
  | .ok _ => []
  | .error error => error.issues

/-- What is made of a result does not change the issues. -/
theorem issuesOf_map {α β : Type} (f : α → β) (result : Except LoweringError α) :
    issuesOf (result.map f) = issuesOf result := by
  cases result <;> rfl

/-- No view fails because the statement is at fault, which lowering would have to report. -/
def Environment.FaultlessViews (env : Environment) : Prop :=
  ∀ c usage error, env.view c usage = .error error → error.issues = []

namespace Lowering

variable {α β : Type}

/-- A run that goes well goes through a state in between. -/
theorem bind_eq_ok {step : Lowering α} {next : α → Lowering β} {env : Environment} {b : β}
    {s s'' : State} :
    (step >>= next) env s = (.ok b, s'') ↔
      ∃ a s', step env s = (.ok a, s') ∧ next a env s' = (.ok b, s'') := by
  rw [bind_apply]
  rcases step env s with ⟨_ | a, s'⟩
  · exact ⟨nofun, nofun⟩
  · constructor
    · exact fun h => ⟨a, s', rfl, h⟩
    · rintro ⟨_, _, hstep, h⟩
      obtain ⟨ha, rfl⟩ := Prod.mk.inj hstep
      exact Except.ok.inj ha ▸ h

theorem eq_of_pure {env : Environment} {s s' : State} {a b : α}
    (h : (pure a : Lowering α) env s = (.ok b, s')) : b = a ∧ s' = s := by
  obtain ⟨hb, hstate⟩ := Prod.mk.inj h
  exact ⟨(Except.ok.inj hb).symm, hstate.symm⟩

/-- A step that fails takes the steps behind it with it. -/
theorem bind_error {x : Lowering α} {next : α → Lowering β} {env : Environment} {s : State}
    {error : LoweringError} (h : (x env s).1 = .error error) :
    ((x >>= next) env s).1 = .error error := by
  rw [bind_apply]
  rcases hx : x env s with ⟨error' | a, s'⟩ <;> rw [hx] at h
  · exact congrArg _ (Except.error.inj h)
  · cases h

/-- The step sees neither the environment nor the parameters, and does no more to the issues than
to add to them. -/
structure Local (x : Lowering α) : Prop where
  environment : ∀ env env' s, x env s = x env' s
  parameters : ∀ env s, (x env s).2.parameters = s.parameters
  ledger : ∀ env s map issues,
    x env { s with parameters := map, issues := issues ++ s.issues }
      = ((x env s).1,
        { (x env s).2 with parameters := map, issues := issues ++ (x env s).2.issues })

/-- Rejecting reports one issue and does nothing else. -/
theorem local_reject (fault : Fault) : (reject fault : Lowering α).Local := by
  refine ⟨fun _ _ _ => rfl, fun _ _ => rfl, fun env s map issues => ?_⟩
  simp [reject, List.append_assoc]

/-- The step adds to the issues the fault it fails with, and nothing else. -/
def Reports (x : Lowering α) : Prop :=
  ∀ env s, (x env s).2.issues = s.issues ++ issuesOf (x env s).1

/-- An error that is no fault of the statement is not reported. -/
theorem reports_fail {error : LoweringError} (h : error.issues = []) :
    (fail error : Lowering α).Reports := by
  intro env s
  show s.issues = s.issues ++ error.issues
  rw [h, List.append_nil]

/-- Rejects a call of a function that is disabled. -/
def checkFunction (name : String) : Lowering Unit := do
  if (← environment).options.isDisabled name then
    reject (.disabledFunction name)

/-- Rejects a function as a source unless experimental syntax is allowed. -/
def checkExperimental (name : String) : Lowering Unit := do
  if !(← environment).options.experimental then
    reject (.experimentalFunction name)

/-- The check passes, or it rejects the call and reports it. -/
theorem checkFunction_apply (name : String) (env : Environment) (s : State) :
    checkFunction name env s
      = if env.options.isDisabled name then reject (.disabledFunction name) env s
        else (.ok (), s) := by
  simp only [checkFunction, bind_apply, environment]
  split <;> rfl

/-- The check passes, or it rejects the source and reports it. -/
theorem checkExperimental_apply (name : String) (env : Environment) (s : State) :
    checkExperimental name env s
      = if env.options.experimental then (.ok (), s)
        else reject (.experimentalFunction name) env s := by
  simp only [checkExperimental, bind_apply, environment]
  cases env.options.experimental <;> rfl

end Lowering

open Lowering in
/-- In an environment and in those that agree with it, the step is put together from basic steps.
Unless it fails before, these are the events on its way. -/
inductive Composed (env : Environment) : {α : Type} → List Event → Lowering α → Prop
  | basic {α : Type} {x : Lowering α} (h : x.Local) (hreports : env.FaultlessViews → x.Reports) :
    Composed env [] x
  | failing {α : Type} {x : Lowering α} {events : List Event} (h : x.Local)
    (hreports : env.FaultlessViews → x.Reports)
    (hfails : ∀ env s, ∃ error, (x env s).1 = .error error) : Composed env events x
  | bind {α β : Type} {x : Lowering α} {next : α → Lowering β} {events events' : List Event}
    (h : Composed env events x) (hnext : ∀ a, Composed env events' (next a)) :
    Composed env (events ++ events') (x >>= next)
  | reading {α : Type} {next : Environment → Lowering α} {events : List Event}
    (h : Composed env events (next env)) (hsame : ∀ env', env.Agree env' → next env' = next env) :
    Composed env events (environment >>= next)
  | checkFunction (name : String) : Composed env [.calls name] (checkFunction name)
  | checkExperimental (name : String) : Composed env [] (checkExperimental name)
  | bindParameter (parameter : Parameter) :
    Composed env [.binds parameter] (bindParameter parameter)
  | nested {α : Type} {x : Lowering α} {events : List Event} (h : Composed env events x) :
    Composed env events (nested x)
  | withScope {α : Type} {scope : Scope} {x : Lowering α} {events : List Event}
    (h : Composed env events x) : Composed env events (withScope scope x)
  | capture {x : Lowering Unit} {events : List Event} (h : Composed env events x) :
    Composed env events (capture x)

namespace Composed

open Lowering

variable {env : Environment} {α β γ : Type} {events events' : List Event} {x : Lowering α}
  {next : α → Lowering β}

/-! ## Basic steps -/

/-- A step that reports nothing, and does not fail because the statement is at fault. -/
theorem quiet (h : x.Local) (hquiet : ∀ env s, (x env s).2.issues = s.issues)
    (hok : ∀ env s, issuesOf (x env s).1 = []) : Composed env [] x := by
  refine .basic h fun _ env s => ?_
  rw [hquiet, hok, List.append_nil]

theorem pure (a : α) : Composed env [] (Pure.pure a) :=
  quiet ⟨fun _ _ _ => rfl, fun _ _ => rfl, fun _ _ _ _ => rfl⟩ (fun _ _ => rfl) fun _ _ => rfl

/-- A failing step has any events: none of them has to happen. -/
theorem fail {error : LoweringError} (h : env.FaultlessViews → error.issues = []) :
    Composed env events (Lowering.fail error : Lowering α) :=
  .failing ⟨fun _ _ _ => rfl, fun _ _ => rfl, fun _ _ _ _ => rfl⟩
    (fun hreports => reports_fail (h hreports)) fun _ _ => ⟨error, rfl⟩

/-- Broken rules are no faults of the statement, so they report nothing. -/
theorem violate (violation : Violation) :
    Composed env events (Lowering.violate violation : Lowering α) :=
  fail fun _ => rfl

theorem reject (fault : Fault) : Composed env events (Lowering.reject fault : Lowering α) :=
  .failing (local_reject fault) (fun _ _ _ => rfl) fun _ _ => ⟨_, rfl⟩

/-- An answer that may be an error sees nothing and reports what the error does. -/
theorem ofExcept {answer : Except LoweringError α}
    (h : env.FaultlessViews → ∀ error, answer = .error error → error.issues = []) :
    Composed env [] (Lowering.ofExcept answer) := by
  cases answer with
  | error error => exact fail fun hreports => h hreports error rfl
  | ok a => exact pure a

/-- An answer that may break a rule reports nothing. -/
theorem ofRule (answer : Except Violation α) : Composed env [] (Lowering.ofRule answer) := by
  cases answer with
  | error violation => exact violate violation
  | ok a => exact pure a

theorem scope : Composed env [] Lowering.scope :=
  quiet ⟨fun _ _ _ => rfl, fun _ _ => rfl, fun _ _ _ _ => rfl⟩ (fun _ _ => rfl) fun _ _ => rfl

theorem isOutermost : Composed env [] Lowering.isOutermost :=
  quiet ⟨fun _ _ _ => rfl, fun _ _ => rfl, fun _ _ _ _ => rfl⟩ (fun _ _ => rfl) fun _ _ => rfl

theorem append (sql : Sql.Fragment) : Composed env [] (Lowering.append sql) :=
  quiet ⟨fun _ _ _ => rfl, fun _ _ => rfl, fun _ _ _ _ => rfl⟩ (fun _ _ => rfl) fun _ _ => rfl

theorem reserveAnchor : Composed env [] Lowering.reserveAnchor :=
  quiet ⟨fun _ _ _ => rfl, fun _ _ => rfl, fun _ _ _ _ => rfl⟩ (fun _ _ => rfl) fun _ _ => rfl

theorem takePending : Composed env [] Lowering.takePending :=
  quiet ⟨fun _ _ _ => rfl, fun _ _ => rfl, fun _ _ _ _ => rfl⟩ (fun _ _ => rfl) fun _ _ => rfl

/-- What becomes of the anchors concerns nothing else, and is no fault of the statement. -/
theorem ofAnchors (change : Sql.AnchorTable → Except Sql.AnchorError (α × Sql.AnchorTable))
    (hx : ∀ env s, x env s =
      match change s.anchors with
      | .ok (a, anchors) => (.ok a, { s with anchors })
      | .error error => (.error (.internal (.anchor error)), s)) : Composed env [] x := by
  refine quiet ⟨fun env env' s => ?_, fun env s => ?_, fun env s map issues => ?_⟩
    (fun env s => ?_) fun env s => ?_
  · rw [hx, hx]
  · rw [hx]
    cases change s.anchors <;> rfl
  · rw [hx, hx]
    dsimp only
    cases change s.anchors <;> rfl
  · rw [hx]
    cases change s.anchors <;> rfl
  · rw [hx]
    cases change s.anchors <;> rfl

theorem captureAt (id : Sql.AnchorId) (select : Sql.CapturedSelect) :
    Composed env [] (Lowering.captureAt id select) := by
  refine ofAnchors (fun anchors => (anchors.capture id select).map (((), ·))) fun env s => ?_
  unfold Lowering.captureAt
  cases s.anchors.capture id select <;> rfl

theorem takeCapture (id : Sql.AnchorId) : Composed env [] (Lowering.takeCapture id) := by
  refine ofAnchors (·.takeCapture id) fun env s => ?_
  unfold Lowering.takeCapture
  cases s.anchors.takeCapture id <;> rfl

theorem resolveAnchor (id : Sql.AnchorId) (replacement : Sql.Fragment) :
    Composed env [] (Lowering.resolveAnchor id replacement) := by
  refine ofAnchors (fun anchors => (anchors.resolve id replacement).map (((), ·))) fun env s => ?_
  unfold Lowering.resolveAnchor
  cases s.anchors.resolve id replacement <;> rfl

theorem finish : Composed env [] Statement.finish := by
  refine quiet ⟨fun _ _ _ => rfl, fun env s => ?_, fun env s map issues => ?_⟩ (fun env s => ?_)
    fun env s => ?_
  · unfold Statement.finish
    split <;> rfl
  · unfold Statement.finish
    dsimp only
    split <;> rfl
  · unfold Statement.finish
    split <;> rfl
  · unfold Statement.finish
    split
    · rfl
    · show issuesOf ((s.anchors.render s.buffer.root).mapError _) = []
      cases s.anchors.render s.buffer.root <;> rfl

/-! ## Steps after steps -/

/-- The rule for a step after one on which nothing happens. -/
theorem after (h : Composed env [] x) (hnext : ∀ a, Composed env events (next a)) :
    Composed env events (x >>= next) :=
  .bind h hnext

/-- The rule for a step before one on which nothing happens. -/
theorem before (h : Composed env events x) (hnext : ∀ a, Composed env [] (next a)) :
    Composed env events (x >>= next) := by
  rw [← List.append_nil events]
  exact .bind h hnext

/-- The rule for a step that is one of two. -/
theorem ite {c : Prop} [Decidable c] {y : Lowering α} (hx : c → Composed env events x)
    (hy : ¬c → Composed env events y) : Composed env events (if c then x else y) := by
  split
  next hc => exact hx hc
  next hc => exact hy hc

/-- Environments that agree have the same catalog, so it may be read. -/
theorem catalog_bind {next : Catalog → Lowering α} (h : Composed env events (next env.catalog)) :
    Composed env events (Lowering.catalog >>= next) := by
  have hsame (env' : Environment) (hagree : env.Agree env') :
      next env'.catalog = next env.catalog := by
    rw [hagree.catalog]
  exact reading h hsame

/-! ## Lists -/

section Lists

variable {l : List γ} {events : γ → List Event}

/-- The events of steps for a list are those of the single steps, in their order. -/
theorem mapM {step : γ → Lowering α} (h : ∀ c ∈ l, Composed env (events c) (step c)) :
    Composed env (l.flatMap events) (l.mapM step) := by
  induction l with
  | nil => exact pure []
  | cons c l ih =>
    have hfirst := h c (List.mem_cons_self ..)
    have hrest := ih fun d hd => h d (List.mem_cons_of_mem c hd)
    rw [List.mapM_cons, List.flatMap_cons]
    exact hfirst.bind fun b => hrest.before fun bs => pure (b :: bs)

end Lists

end Composed

end EntitySql
