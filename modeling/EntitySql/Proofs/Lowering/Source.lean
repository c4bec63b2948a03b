import EntitySql.Proofs.Lowering.Call
import EntitySql.Proofs.Lowering.Quantified

/-!
# The specifications of sources

A class name is a view in a query and a table elsewhere. In standard surroundings a view can only
fail because of the catalog.
-/

namespace EntitySql

open Lowering
open Sql (Fragment qualified)

/-- A standard view only fails with an error of the catalog. -/
theorem Environment.Standard.exists_of_view_eq_error {env : Environment} (h : env.Standard)
    {c : ClassName} {usage : PropertyUsage} {error : LoweringError}
    (herror : env.view c usage = .error error) :
    ∃ cause, env.catalog.viewArms c usage = .error cause ∧ error = .catalog cause := by
  rw [h.view, Catalog.viewSource] at herror
  cases hview : env.catalog.view c usage with
  | ok view =>
    rw [hview] at herror
    cases herror
  | error cause =>
    rw [hview] at herror
    obtain rfl := Except.error.inj herror
    exact Catalog.exists_of_view_eq_error hview

/-- Which properties are needed of a class does not depend on what is allowed. -/
theorem Environment.Agree.neededProperties_eq {env env' : Environment} (h : env.Agree env')
    (scope : Scope) (usageOf : String → PropertyUsage) (c : ClassName) :
    neededProperties env'.options scope usageOf c
      = neededProperties env.options scope usageOf c := by
  rw [neededProperties, neededProperties, h.pruneNestedViews]

namespace Setting

variable {S : Setting} {R : Results} {c : ClassName} {usageOf : String → PropertyUsage}

/-! ## Class names -/

/-- The rule for a step that looks up the map of a class. -/
theorem Spec.usableMap_bind {α : Type} {events : List Event} {Q : α → Prop}
    {next : ClassMap → Lowering α}
    (h : ∀ map, S.env.catalog.classMap c.classId = .ok map → S.Spec events (next map) Q) :
    S.Spec events (usableMap c >>= next) Q := by
  rw [usableMap, bind_assoc]
  refine .catalog_bind ?_
  split
  next map hmap => exact h map hmap
  next => exact .reject
  next error _ herror =>
    exact .failCatalog fun _ => S.env.catalog.findsTables_classMap _ error herror

/-- Checking in how many tables a class is stored is no event. -/
theorem spec_checkSingleTable : S.Spec [] (checkSingleTable c) fun _ => True := by
  refine .catalog_bind (.ofCatalog_bind (fun _ => ?_) fun tables _ => ?_)
  · exact (S.env.catalog.findsTables_classAndDerived _).bind fun _ _ => .ok _
  · exact .ite (fun _ => .reject) fun _ => .pure trivial

/-- The view of a class, as the environment makes it. -/
theorem spec_view {usage : PropertyUsage} :
    S.Spec [] (do return Fragment.ofText (← ofExcept (S.env.view c usage))) (c.Form S) := by
  refine ⟨.after (.ofExcept fun hviews => hviews c usage) fun x => .pure _, ?_⟩
  refine .ofExcept_bind (fun error herror => .fail (fun hstandard => ?_) fun htables => ?_)
    fun x hx => .pure (.view hx)
  · obtain ⟨cause, -, rfl⟩ := hstandard.exists_of_view_eq_error herror
    rfl
  · obtain ⟨cause, hcause, rfl⟩ := htables.exists_of_view_eq_error herror
    exact htables.catalog.findsTables_viewArms c usage cause hcause

/-- A class name is the view of the class in a select, and its table in a change. -/
theorem spec_className : S.Spec [] (className usageOf c) (c.Form S) := by
  refine .usableMap_bind fun map hmap => .environment_bind (.scope_bind fun scope => ?_) ?_
  · split
    · exact .guard fun _ => spec_view
    · refine .ite (fun _ => ?_) fun _ => .pure (.table hmap)
      exact spec_checkSingleTable.seq fun _ => .pure (.table hmap)
    · exact .guard fun _ => .pure (.table hmap)
    · exact .guard fun _ => .pure (.table hmap)
  · intro env' hagree
    simp only [hagree.view, hagree.neededProperties_eq]

/-! ## Joins -/

/-- What happens while a source is lowered. -/
def sourceEvents (S : Setting) (source : Source) : List Event :=
  (Node.source source).events S.env

/-- The source is lowered as specified, whatever is needed of it. -/
def Reads (S : Setting) (R : Results) (source : Source) : Prop :=
  ∀ usageOf, S.Spec (S.sourceEvents source) (source.lower usageOf) (R.source source)

/-- The direction of a relationship is given or looked up, without events. -/
theorem spec_joinDirection {link : ClassName} {near far : ClassId} {direction : JoinDirection} :
    S.Spec [] (joinDirection link near far direction) fun _ => True := by
  refine .catalog_bind (.ofCatalog_bind (fun _ => S.env.catalog.findsTables_classDef _) ?_)
  intro c _
  split
  · exact .reject
  · split
    · exact .pure trivial
    · exact .reject

variable {lhs rhs : Source}

/-- A join through a relationship is one of three sources. -/
theorem spec_relationshipJoin {near far link : ClassName} {direction : JoinDirection}
    (hl : S.Reads R lhs) (hr : S.Reads R rhs) (hnear : near ∈ lhs.lastClass?)
    (hfar : far ∈ rhs.lastClass?) :
    S.Spec (S.sourceEvents lhs ++ S.sourceEvents rhs)
      (relationshipJoin usageOf near far (lhs.lower usageOf) (rhs.lower usageOf) link direction)
      (Source.Form S R (.join lhs rhs (.relationship link direction))) := by
  refine spec_joinDirection.seq fun resolved => ?_
  have hjoin {nearEnd farEnd : String} (hnearEnd : nearEnd ∈ linkEnds)
      (hfarEnd : farEnd ∈ linkEnds) : S.Spec (S.sourceEvents lhs ++ S.sourceEvents rhs) (do
        let lhs ← lhs.lower usageOf
        let links ← className usageOf link
        let rhs ← rhs.lower usageOf
        return linkedJoin near far link nearEnd farEnd lhs links rhs)
        (Source.Form S R (.join lhs rhs (.relationship link direction))) := by
    refine (hl usageOf).bind fun f => spec_className.after fun links => ?_
    exact (hr usageOf).make fun g hg hlinks hf =>
      .relationship hnear hfar hf hlinks hg hnearEnd hfarEnd
  dsimp only
  split
  · exact hjoin (by decide) (by decide)
  · exact hjoin (by decide) (by decide)

/-- A join is made of its operands and its condition, if it has one. -/
theorem spec_join {kind : JoinKind Exp} (hl : S.Reads R lhs) (hr : S.Reads R rhs)
    (hkind : ∀ e ∈ kind.exps, S.Lowers R e) :
    S.Spec (S.sourceEvents lhs ++ (S.sourceEvents rhs ++ kind.exps.flatMap S.eventsOf))
      (join usageOf lhs.lastClass? rhs.lastClass? (lhs.lower usageOf) (rhs.lower usageOf)
        (kind.map Exp.operand))
      (Source.Form S R (.join lhs rhs kind)) := by
  cases kind with
  | natural | «using» => exact .reject
  | cross =>
    rw [JoinKind.exps, List.flatMap_nil, List.append_nil]
    exact (hl usageOf).bind fun _ => (hr usageOf).make fun _ hg hf => .cross hf hg
  | on type condition =>
    have hcondition := hkind condition (List.mem_singleton_self _)
    rw [JoinKind.exps, List.flatMap_singleton]
    exact (hl usageOf).bind fun _ => (hr usageOf).bind fun _ =>
      (hcondition.single _).make fun _ hc hg hf => .on hf hg hc
  | relationship link direction =>
    rw [JoinKind.exps, List.flatMap_nil, List.append_nil]
    cases hnear : lhs.lastClass? with
    | none => exact .reject
    | some near =>
      cases hfar : rhs.lastClass? with
      | none => exact .reject
      | some far => exact spec_relationshipJoin hl hr hnear hfar

/-! ## Other sources -/

/-- A subquery as a source is written in parentheses under its alias. -/
theorem spec_sourceSubquery {w : Select Exp Source} {aliasName : String} (h : S.Selects R w) :
    S.Spec (S.selectEvents w) (sourceSubquery w.write aliasName)
      (Source.Form S R (.subquery w aliasName)) :=
  h.capture.make fun _ ⟨_, hf⟩ => .subquery hf

/-- A function as a source, with the check of experimental syntax as a step. -/
theorem sourceFunction_eq (c : FunctionCall Operand) (aliasName : Option String) :
    sourceFunction c aliasName = (do
      checkExperimental c.name
      return (← call c .source).sql ++ aliasSuffix aliasName) := by
  funext env s
  simp only [sourceFunction, checkExperimental, bind_apply, environment]
  cases env.options.experimental <;> rfl

/-- A function as a source is a call with an alias. -/
theorem spec_sourceFunction {c : FunctionCall Exp} {aliasName : Option String}
    (h : ∀ e ∈ c.args, S.Lowers R e) :
    S.Spec (.calls c.name :: S.argumentEvents c) (sourceFunction (c.map Exp.operand) aliasName)
      (Source.Form S R (.function c aliasName)) := by
  rw [sourceFunction_eq]
  exact (Spec.checkExperimental c.name).seq fun _ => (spec_call h).make fun _ => .function

end Setting

end EntitySql
