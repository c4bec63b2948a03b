import EntitySql.Proofs.Lowering.Operands
import EntitySql.Proofs.TwoRuns.Select

/-!
# Expressions, sources and selects in two runs

`TwoRuns.holds` is the induction over the syntax: the runs agree on a node if, everywhere inside it,
the texts of constants are alike in quotes, and so are the views of the classes that nested selects
name (`TwoRuns.Admits`). The select at the root of a statement is not nested, and no run prunes its
views.
-/

namespace EntitySql

open Lowering
open Sql (AnchorId Fragment)

/-- The texts of the constant that an expression is. -/
def Exp.texts : Exp → List String
  | .literal l => l.value.texts
  | .enumerator _ _ value => value.texts
  | _ => []

namespace TwoRuns

variable {W : TwoRuns}

/-! ## What the runs need -/

/-- The runs agree on the views of the classes that a select names, should it not be the root. -/
def Prunes (W : TwoRuns) (c : SelectCore Exp Source) : Prop :=
  ∀ n ∈ c.classNames, W.PrunesAlike (PropertyUsage.ofReferences (coreReferences c)) n

/-- Inside the node, texts of constants are alike in quotes and the views of nested selects are
alike. -/
structure Admits (W : TwoRuns) (n : Node) : Prop where
  texts : ∀ e, (Node.exp e).Within n → ∀ x ∈ e.texts, W.RenamesText x
  views : ∀ m : Node, m.Within n → ∀ w, .select w ∈ m.parts → ∀ c ∈ w.cores, W.Prunes c

/-- What is admitted of a whole is admitted of its parts. -/
theorem Admits.part {m n : Node} (h : W.Admits n) (hm : m ∈ n.parts) : W.Admits m :=
  ⟨fun e he => h.texts e (.part hm he), fun k hk => h.views k (.part hm hk)⟩

/-- The runs agree on a node. -/
def Holds (W : TwoRuns) : Node → Prop
  | .exp e => ∀ σ, W.Lowers σ e
  | .source s => ∀ σ usageOf,
    ((σ.headD .outermost).isRoot = false → ∀ c ∈ s.classNames, W.PrunesAlike usageOf c) →
      W.Agree σ (s.lower usageOf) ((s.mapTexts W.rename).lower usageOf) W.FragmentsAlike
  | .core c => ∀ σ isRoot anchor anchor', Option.Rel W.AnchorsAlike anchor anchor' →
      (isRoot = false → W.Prunes c) →
        W.Agree σ (core (coreOperands c) isRoot anchor)
          (core (coreOperands (coreTexts W.rename c)) isRoot anchor') W.FragmentsAlike
  | .select w => ∀ σ, (σ ≠ [] → ∀ c ∈ w.cores, W.Prunes c) →
      W.Writes σ w.write (selectTexts W.rename w).write

/-! ## Node by node -/

/-- Runs agree on an expression if they do on its parts. -/
theorem holds_exp {e : Exp} (h : ∀ m ∈ e.parts, W.Holds m) (hadmits : W.Admits (.exp e)) :
    W.Holds (.exp e) := by
  intro σ
  have htexts : ∀ x ∈ e.texts, W.RenamesText x := hadmits.texts e .self
  have hexp {e' : Exp} (he : .exp e' ∈ e.parts) : W.Lowers σ e' := h (.exp e') he σ
  have hexps {exps : List Exp} (hparts : e.parts = exps.map .exp) : ∀ e ∈ exps, W.Lowers σ e :=
    fun e' he => hexp (hparts ▸ List.mem_map_of_mem he)
  have hselect {w : Select Exp Source} (hw : .select w ∈ e.parts) :
      W.Writes σ w.write (selectTexts W.rename w).write :=
    h (.select w) hw σ fun _ => hadmits.views (.exp e) .self w hw
  show W.Agree σ e.body (e.mapTexts W.rename).body W.ColumnsAlike
  cases e with
  | literal l =>
    rw [Exp.mapTexts, Exp.body, Exp.body]
    exact agree_literal htexts
  | parameter p =>
    rw [Exp.mapTexts, Exp.body]
    exact agree_parameter
  | property p =>
    rw [Exp.mapTexts, Exp.body]
    exact agree_property
  | enumerator enumeration name value =>
    rw [Exp.mapTexts, Exp.body, Exp.body]
    exact agree_enumerator htexts
  | cast operand target =>
    rw [Exp.mapTexts, Exp.body, Exp.body]
    exact agree_cast (hexp (List.mem_cons_self ..))
  | arithmetic lhs op rhs type parenthesized =>
    rw [Exp.mapTexts, Exp.body, Exp.body]
    exact agree_arithmetic (hexp (by simp [Exp.parts])) (hexp (by simp [Exp.parts]))
  | sign op operand type =>
    rw [Exp.mapTexts, Exp.body, Exp.body]
    exact agree_sign (hexp (List.mem_cons_self ..))
  | call c =>
    rw [Exp.mapTexts, Exp.body, Exp.body, callTexts_eq, callOperands_eq, callOperands_eq,
      FunctionCall.map_map]
    exact (agree_call (hexps rfl)).bind fun _ _ hl => .pure (.singleton hl.sql)
  | case branches otherwise type =>
    have hall := hexps rfl
    rw [Exp.mapTexts, Exp.body, Exp.body, branchTexts_eq, branchOperands_eq, branchOperands_eq,
      CaseBranch.map_map, optionTexts_eq, optionOperand_eq, optionOperand_eq, Option.map_map]
    exact agree_case (fun e he => hall e (List.mem_append_left _ he))
      fun e he => hall e (List.mem_append_right _ he)
  | iif condition consequent alternative type =>
    rw [Exp.mapTexts, Exp.body, Exp.body]
    exact agree_iif (hexp (by simp [Exp.parts])) (hexp (by simp [Exp.parts]))
      (hexp (by simp [Exp.parts]))
  | navigation value =>
    have hall := hexps rfl
    rw [Exp.mapTexts, body_navigation, body_navigation, optionTexts_eq]
    exact (NavigationValue.map_map (·.mapTexts W.rename) Exp.operand value).symm ▸
      agree_navigation (hall _ (List.mem_cons_self ..))
        fun e he => hall e (List.mem_cons_of_mem _ he)
  | extractProperty aliasName access type =>
    rw [Exp.mapTexts, Exp.body, extractProperty]
    exact .pure (.singleton (.refl _))
  | extractInstance aliasName =>
    rw [Exp.mapTexts, Exp.body, extractInstance]
    exact .pure (.singleton (.refl _))
  | subquery select =>
    rw [Exp.mapTexts, Exp.body, Exp.body]
    exact agree_subquery (hselect (List.mem_cons_self ..))
  | list values =>
    rw [Exp.mapTexts, Exp.body, Exp.body, listTexts_eq, listOperands_eq, listOperands_eq,
      List.map_map]
    exact agree_list (hexps rfl)
  | typeList entries =>
    rw [Exp.mapTexts, Exp.body]
    exact .violate
  | window c filter overWindow =>
    have hall := hexps rfl
    rw [Exp.mapTexts, Exp.body, Exp.body, callTexts_eq, callOperands_eq, callOperands_eq,
      FunctionCall.map_map, optionTexts_eq, optionOperand_eq, optionOperand_eq, Option.map_map,
      overTexts_eq, overOperands_eq, overOperands_eq, WindowOver.map_map]
    exact agree_window
      (fun e he => hall e (List.mem_append_left _ (List.mem_append_left _ he)))
      (fun e he => hall e (List.mem_append_left _ (List.mem_append_right _ he)))
      fun e he => hall e (List.mem_append_right _ he)
  | boolean lhs op rhs parenthesized =>
    rw [Exp.mapTexts, Exp.body, Exp.body]
    exact agree_boolean (hexp (by simp [Exp.parts])) (hexp (by simp [Exp.parts]))
  | not operand parenthesized =>
    rw [Exp.mapTexts, Exp.body, Exp.body]
    exact agree_not (hexp (List.mem_cons_self ..))
  | between operand lower upper negated =>
    rw [Exp.mapTexts, Exp.body, Exp.body]
    exact agree_between (hexp (by simp [Exp.parts])) (hexp (by simp [Exp.parts]))
      (hexp (by simp [Exp.parts]))
  | like operand pattern escape negated =>
    have hall := hexps rfl
    rw [Exp.mapTexts, Exp.body, Exp.body, optionTexts_eq, optionOperand_eq, optionOperand_eq,
      Option.map_map]
    exact agree_like (hall _ (by simp)) (hall _ (by simp))
      fun e he => hall e (List.mem_cons_of_mem _ (List.mem_cons_of_mem _ he))
  | quantified operand op quantifier select =>
    have hcompound : (selectTexts W.rename select).isCompound = select.isCompound := by
      rw [selectTexts_eq, Select.isCompound_map]
    rw [Exp.mapTexts, Exp.body, Exp.body, hcompound]
    exact agree_quantified (hexp (by simp [Exp.parts])) (hselect (by simp [Exp.parts]))
  | subqueryTest test select =>
    rw [Exp.mapTexts, Exp.body, Exp.body]
    exact agree_subqueryTest (hselect (List.mem_cons_self ..))

/-- Runs agree on a source if they do on its parts. -/
theorem holds_source {source : Source} (h : ∀ m ∈ source.parts, W.Holds m)
    (hadmits : W.Admits (.source source)) : W.Holds (.source source) := by
  intro σ usageOf hviews
  cases source with
  | ofClass c =>
    rw [Source.mapTexts, Source.lower]
    exact agree_className fun hroot => hviews hroot c (List.mem_cons_self ..)
  | join lhs rhs kind =>
    have hl := h (.source lhs) (by simp [Source.parts]) σ usageOf fun hroot c hc =>
      hviews hroot c (by simp [Source.classNames, hc])
    have hr := h (.source rhs) (by simp [Source.parts]) σ usageOf fun hroot c hc =>
      hviews hroot c (by simp [Source.classNames, hc])
    rw [Source.mapTexts, Source.lower, Source.lower, Source.lastClass?_mapTexts,
      Source.lastClass?_mapTexts, joinTexts_eq, joinOperands_eq, joinOperands_eq, JoinKind.map_map]
    refine agree_join hl hr (fun e he => h (.exp e) ?_ σ) fun hroot c hc => hviews hroot c ?_
    · exact List.mem_cons_of_mem _ (List.mem_cons_of_mem _ (List.mem_map_of_mem he))
    · simp [Source.classNames, hc]
  | subquery select aliasName =>
    have hselect : .select select ∈ (Source.subquery select aliasName).parts :=
      List.mem_cons_self ..
    rw [Source.mapTexts, Source.lower, Source.lower]
    exact agree_sourceSubquery
      (h _ hselect σ fun _ => hadmits.views _ .self select hselect)
  | function c aliasName =>
    rw [Source.mapTexts, Source.lower, Source.lower, callTexts_eq, callOperands_eq, callOperands_eq,
      FunctionCall.map_map]
    exact agree_sourceFunction fun e he => h (.exp e) (List.mem_map_of_mem he) σ
  | commonTable name aliasName =>
    rw [Source.mapTexts, Source.lower, commonTable]
    exact .pure (.refl _)

/-- Runs agree on a single select if they do on its parts. -/
theorem holds_core {c : SelectCore Exp Source} (h : ∀ m ∈ (Node.core c).parts, W.Holds m) :
    W.Holds (.core c) := by
  intro σ isRoot anchor anchor' hanchor hprunes
  rw [coreOperands_eq, coreOperands_eq, coreReferences_mapTexts, coreTexts_eq,
    SelectCore.map_map]
  refine agree_core hanchor (fun scope e he => ?_) fun scope hscope s hs => ?_
  · exact h (.exp e) (List.mem_append_left _ (List.mem_map_of_mem he)) _
  · refine h (.source s) (List.mem_append_right _ (List.mem_map_of_mem hs)) _ _ fun hroot n hn => ?_
    exact hprunes (hscope.symm.trans hroot) n (List.mem_flatMap.2 ⟨s, hs, hn⟩)

/-- Runs agree on a select if they do on the single ones. -/
theorem holds_select {w : Select Exp Source} (h : ∀ m ∈ (Node.select w).parts, W.Holds m) :
    W.Holds (.select w) := by
  intro σ hprunes
  have harms : armOperands (selectTexts W.rename w).rest
      = w.rest.map fun arm => ⟨arm.op, coreOperands (coreTexts W.rename arm.core)⟩ := by
    rw [armOperands_eq, selectTexts_eq, Select.map, List.map_map]
    simp only [CompoundArm.map, Function.comp_def, coreTexts_eq]
  have hfirst : (selectTexts W.rename w).first = coreTexts W.rename w.first := by
    rw [selectTexts_eq, Select.map, coreTexts_eq]
  rw [Select.write, Select.write, harms, hfirst, armOperands_eq]
  refine agree_writeOr (agree_writeSelect coreOperands
    (fun c => coreOperands (coreTexts W.rename c)) fun c hc anchor anchor' hanchor => ?_)
  refine h (.core c) (List.mem_map_of_mem hc) σ _ anchor anchor' hanchor fun hroot => hprunes ?_ c hc
  rintro rfl
  cases hroot

/-- The runs agree on every node that they admit. -/
theorem holds (n : Node) (hadmits : W.Admits n) : W.Holds n := by
  induction n using Node.induction with
  | h n ih =>
    have hparts : ∀ m ∈ n.parts, W.Holds m := fun m hm => ih m hm (hadmits.part hm)
    cases n with
    | exp e => exact holds_exp hparts hadmits
    | source s => exact holds_source hparts hadmits
    | core c => exact holds_core hparts
    | select w => exact holds_select hparts

end TwoRuns

end EntitySql
