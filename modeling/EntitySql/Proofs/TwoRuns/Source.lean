import EntitySql.Proofs.TwoRuns.Call
import EntitySql.Proofs.TwoRuns.Condition

/-!
# Sources in two runs

Class names are the one place where it matters whether a run prunes nested views. In a root select
no run prunes. In another select the runs agree on a class name if the two views of the class are
alike.
-/

namespace EntitySql

open Lowering
open Sql (Columns Fillings Fragment)

/-- The class that a join goes through. -/
def JoinKind.links {α : Type} : JoinKind α → List ClassName
  | .relationship link _ => [link]
  | .cross | .natural _ | .on .. | .using .. => []

/-- The classes that a source names itself, those of its subqueries apart. -/
def Source.classNames : Source → List ClassName
  | .ofClass c => [c]
  | .join lhs rhs kind => lhs.classNames ++ rhs.classNames ++ kind.links
  | .subquery .. | .function .. | .commonTable .. => []

/-- The classes that a select names itself, those of its subqueries apart. -/
def SelectCore.classNames (c : SelectCore Exp Source) : List ClassName :=
  c.sources.flatMap (·.classNames)

namespace TwoRuns

variable {W : TwoRuns} {σ : List Scope} {usageOf : String → PropertyUsage} {c : ClassName}

/-! ## Class names -/

/-- In a select that is not the root, the runs agree on the view of a class. -/
def PrunesAlike (W : TwoRuns) (usageOf : String → PropertyUsage) (c : ClassName) : Prop :=
  SameOutcome W.Alike
    (W.env.view c (if W.env.options.pruneNestedViews then usageOf c.effectiveAlias else .all))
    (W.env.view c (if W.prune then usageOf c.effectiveAlias else .all))

/-- Views are made on both sides, with a hole for what only one of them reads. -/
theorem same_view {scope scope' : Scope} (hscope : scope.Alike scope')
    (h : scope.isRoot = false → W.PrunesAlike usageOf c) :
    SameOutcome W.Alike (W.env.view c (neededProperties W.env.options scope usageOf c))
      (W.other.view c (neededProperties W.other.options scope' usageOf c)) := by
  have hother : W.other.view c (neededProperties W.other.options scope' usageOf c)
      = W.env.view c (if W.prune && !scope'.isRoot then usageOf c.effectiveAlias else .all) := rfl
  rw [hother, neededProperties, hscope.isRoot]
  cases hroot : scope.isRoot with
  | true =>
    simp only [Bool.not_true, Bool.and_false, Bool.false_eq_true, if_false]
    exact .refl .refl _
  | false =>
    simp only [Bool.not_false, Bool.and_true]
    exact h hroot

/-- Runs agree on which classes may be used. -/
theorem agree_usableMap : W.Agree σ (usableMap c) (usableMap c) Eq := by
  refine .catalog_bind ?_
  split
  · exact .pure rfl
  · exact .reject
  · exact .fail

/-- Runs agree on which classes are stored in one table. -/
theorem agree_checkSingleTable :
    W.Agree σ (checkSingleTable c) (checkSingleTable c) fun _ _ => True := by
  refine .catalog_bind (Agree.ofCatalog.bind fun tables _ htables => ?_)
  subst htables
  split
  · exact .reject
  · exact .pure trivial

/-- Runs agree on class names, up to the properties that are left out. -/
theorem agree_className
    (h : (σ.headD .outermost).isRoot = false → W.PrunesAlike usageOf c) :
    W.Agree σ (className usageOf c) (className usageOf c) W.FragmentsAlike := by
  refine agree_usableMap.bind fun map _ hmap => .environment_bind (.scope_bind ?_)
  subst hmap
  intro scope hscope
  rw [hscope.kind]
  cases (σ.headD .outermost).kind with
  | select =>
    refine .guard Iff.rfl rfl ?_
    exact (Agree.ofExcept (same_view hscope h)).bind fun _ _ hab => .pure (.ofText hab)
  | delete =>
    dsimp only
    split
    · exact agree_checkSingleTable.bind fun _ _ _ => .pure (.refl _)
    · exact .pure (.refl _)
  | insert | update => exact .guard Iff.rfl rfl (.pure (.refl _))

/-! ## Joins -/

variable {lhs rhs lhs' rhs' : Lowering Fragment} {kind : JoinKind Exp} {near far : Option ClassName}

/-- Runs agree on the direction of a relationship. -/
theorem agree_joinDirection {link : ClassName} {near far : ClassId} {direction : JoinDirection} :
    W.Agree σ (joinDirection link near far direction) (joinDirection link near far direction)
      Eq := by
  refine .catalog_bind (Agree.ofCatalog.bind fun definition _ hdefinition => ?_)
  subst hdefinition
  split
  · exact .reject
  · split
    · exact .pure rfl
    · exact .reject

/-- Runs agree on joins through a relationship. -/
theorem agree_relationshipJoin {link near far : ClassName} {direction : JoinDirection}
    (hl : W.Agree σ lhs lhs' W.FragmentsAlike) (hr : W.Agree σ rhs rhs' W.FragmentsAlike)
    (hlink : (σ.headD .outermost).isRoot = false → W.PrunesAlike usageOf link) :
    W.Agree σ (relationshipJoin usageOf near far lhs rhs link direction)
      (relationshipJoin usageOf near far lhs' rhs' link direction) W.FragmentsAlike := by
  refine agree_joinDirection.bind fun direction _ hdirection => ?_
  subst hdirection
  refine hl.bind fun l l' hl => (agree_className hlink).bind fun f g hfg => ?_
  refine hr.bind fun r r' hr => .pure ?_
  have hfirst : W.FragmentsAlike (l ++ " INNER JOIN " ++ f) (l' ++ " INNER JOIN " ++ g) :=
    (hl.append (.refl _)).append hfg
  exact (((hfirst.append (.refl _)).append (.refl _)).append hr).append (.refl _)

/-- Runs agree on joins. -/
theorem agree_join (hl : W.Agree σ lhs lhs' W.FragmentsAlike)
    (hr : W.Agree σ rhs rhs' W.FragmentsAlike) (hexps : ∀ e ∈ kind.exps, W.Lowers σ e)
    (hlinks : (σ.headD .outermost).isRoot = false → ∀ c ∈ kind.links, W.PrunesAlike usageOf c) :
    W.Agree σ (join usageOf near far lhs rhs (kind.map Exp.operand))
      (join usageOf near far lhs' rhs' (kind.map W.image)) W.FragmentsAlike := by
  cases kind with
  | natural | «using» => exact .reject
  | cross =>
    refine hl.bind fun l l' hl => hr.bind fun r r' hr => .pure ?_
    exact (hl.append (.refl _)).append hr
  | on type condition =>
    refine hl.bind fun l l' hl => hr.bind fun r r' hr => ?_
    refine (hexps condition (List.mem_singleton_self _)).single.bind fun f g hfg => .pure ?_
    exact (((hl.append (.refl _)).append hr).append (.refl _)).append hfg
  | relationship link direction =>
    cases near with
    | none => exact .reject
    | some near =>
      cases far with
      | none => exact .reject
      | some far =>
        exact agree_relationshipJoin hl hr fun hroot => hlinks hroot _ (List.mem_singleton_self _)

/-! ## Other sources -/

/-- Runs agree on subqueries as sources. -/
theorem agree_sourceSubquery {x y : Lowering Unit} {aliasName : String} (h : W.Writes σ x y) :
    W.Agree σ (sourceSubquery x aliasName) (sourceSubquery y aliasName) W.FragmentsAlike :=
  (Agree.capture h).bind fun _ _ hfg => .pure (hfg.parenthesized.append (.refl _))

/-- Runs agree on functions as sources. -/
theorem agree_sourceFunction {call : FunctionCall Exp} {aliasName : Option String}
    (h : ∀ e ∈ call.args, W.Lowers σ e) :
    W.Agree σ (sourceFunction (call.map Exp.operand) aliasName)
      (sourceFunction (call.map W.image) aliasName) W.FragmentsAlike := by
  refine .environment_bind (.guard Iff.rfl rfl ?_)
  exact (agree_call h).bind fun _ _ hl => .pure (hl.sql.append (.refl _))

end TwoRuns

end EntitySql
