import EntitySql.Proofs.Lowering.Select

/-!
# The specifications of expressions, sources and selects

The operands of a clause are those of its expressions, so a node is lowered as specified if its
parts are, one kind of node at a time. `Setting.holds` is the induction over the syntax. It is the
only one about what a single run of lowering does: whatever passes from the results of the parts to
those of the whole holds of all results.
-/

namespace EntitySql.Setting

variable {S : Setting} {R : Results}

/-- A node is lowered as specified. -/
def Holds (S : Setting) (R : Results) : Node → Prop
  | .exp e => S.Lowers R e
  | .source source => S.Reads R source
  | .core c => S.Cores R c
  | .select w => S.Selects R w

/-! ## Expressions -/

section Expressions

variable {e : Exp} (hR : R.Closed S) (h : ∀ m ∈ e.parts, S.Holds R m)

/-- Nothing happens with an expression but what happens with the expressions below it. -/
theorem eventsOf_eq (exps : List Exp) (hown : (Node.exp e).ownEvents S.env.functions = [])
    (hlowered : (Node.exp e).lowered S.env.functions = exps.map .exp) :
    S.eventsOf e = exps.flatMap S.eventsOf := by
  rw [eventsOf, Node.events_eq, hown, Node.written, hlowered, List.flatMap_map]
  rfl

include hR in
/-- The columns of an expression are as specified if they have the form that they have to have. -/
theorem lowers_of_form (events : List Event)
    (h : S.Spec events e.body (Exp.Form S R e)) (hevents : S.eventsOf e = events) :
    S.Lowers R e :=
  (h.congr hevents.symm).imp fun _ => hR.exp

include h in
/-- The expressions below an expression are lowered as specified. -/
theorem lowers_exps (exps : List Exp) (hparts : e.parts = exps.map .exp) :
    ∀ a ∈ exps, S.Lowers R a :=
  fun a ha => h (.exp a) (hparts ▸ List.mem_map_of_mem ha)

include hR h

/-- A call is lowered as specified if its arguments are. -/
theorem lowers_call {c : FunctionCall Exp} (he : e = .call c) : S.Lowers R e := by
  subst he
  have hargs := lowers_exps h _ rfl
  refine lowers_of_form hR (.calls c.name :: S.argumentEvents c) ?_ ?_
  · rw [Exp.body, callOperands_eq]
    exact (spec_call hargs).make fun _ => .call
  · rw [eventsOf, Node.events_eq, Node.written, Node.lowered, List.flatMap_map]
    show ([] ++ [c].flatMap _) ++ _ = _
    rw [List.nil_append, List.flatMap_singleton, FunctionCall.events, argumentEvents]
    rfl

/-- A call over a window is lowered as specified if the expressions in it are. -/
theorem lowers_window {c : FunctionCall Exp} {filter : Option Exp} {overWindow : WindowOver Exp}
    (he : e = .window c filter overWindow) : S.Lowers R e := by
  subst he
  have hexps := lowers_exps h _ rfl
  simp only [List.mem_append, or_imp, forall_and] at hexps
  obtain ⟨⟨hargs, hfilter⟩, hover⟩ := hexps
  refine lowers_of_form hR ((.calls c.name :: S.argumentEvents c)
    ++ (filter.toList.flatMap S.eventsOf ++ overWindow.exps.flatMap S.eventsOf)) ?_ ?_
  · rw [Exp.body, callOperands_eq, optionOperand_eq, overOperands_eq]
    exact spec_window hargs hfilter hover
  · rw [eventsOf, Node.events_eq, Node.written, Node.lowered, List.flatMap_map,
      List.flatMap_append, List.flatMap_append]
    show ([] ++ [c].flatMap _) ++ _ = _
    rw [List.nil_append, List.flatMap_singleton, FunctionCall.events, argumentEvents]
    simp only [List.cons_append, List.append_assoc]
    rfl

/-- An expression is lowered as specified if its parts are, one kind at a time. -/
theorem lowers_exp : S.Lowers R e := by
  cases e with
  | literal l =>
    refine lowers_of_form hR _ ?_ (eventsOf_eq [] rfl rfl)
    rw [Exp.body]
    exact spec_literal l
  | parameter p =>
    refine lowers_of_form hR [.binds p] ?_ (by rw [eventsOf, Node.events_eq]; rfl)
    rw [Exp.body]
    exact spec_parameter p
  | property p =>
    refine lowers_of_form hR _ ?_ (eventsOf_eq [] rfl rfl)
    rw [Exp.body]
    exact (spec_property p).imp fun _ => .property
  | enumerator enumeration name value =>
    refine lowers_of_form hR _ ?_ (eventsOf_eq [] rfl rfl)
    rw [Exp.body]
    exact spec_enumerator
  | cast operand target =>
    have hexps := lowers_exps h [operand] rfl
    refine lowers_of_form hR _ ?_ (eventsOf_eq [operand] rfl rfl)
    rw [Exp.body, List.flatMap_singleton]
    exact spec_cast (hexps _ (List.mem_singleton_self _))
  | arithmetic lhs op rhs type parenthesized =>
    have hexps := lowers_exps h [lhs, rhs] rfl
    refine lowers_of_form hR _ ?_ (eventsOf_eq [lhs, rhs] rfl rfl)
    rw [Exp.body, List.flatMap_cons, List.flatMap_singleton]
    exact spec_arithmetic (hexps lhs (by simp)) (hexps rhs (by simp))
  | sign op operand type =>
    have hexps := lowers_exps h [operand] rfl
    refine lowers_of_form hR _ ?_ (eventsOf_eq [operand] rfl rfl)
    rw [Exp.body, List.flatMap_singleton]
    exact spec_sign (hexps _ (List.mem_singleton_self _))
  | call c => exact lowers_call hR h rfl
  | case branches otherwise type =>
    refine lowers_of_form hR _ ?_ (eventsOf_eq _ rfl rfl)
    rw [Exp.body, branchOperands_eq, optionOperand_eq]
    exact spec_case (lowers_exps h _ rfl)
  | iif condition consequent alternative type =>
    have hexps := lowers_exps h [condition, consequent, alternative] rfl
    refine lowers_of_form hR _ ?_
      (eventsOf_eq [condition, consequent, alternative] rfl rfl)
    rw [Exp.body, List.flatMap_cons, List.flatMap_cons, List.flatMap_singleton]
    exact spec_iif (hexps _ (by simp)) (hexps _ (by simp)) (hexps _ (by simp))
  | navigation value =>
    have hexps := lowers_exps h _ rfl
    refine lowers_of_form hR _ ?_ (eventsOf_eq _ rfl rfl)
    rw [body_navigation]
    exact spec_navigation (hexps _ (List.mem_cons_self ..)) fun e he =>
      hexps e (List.mem_cons_of_mem _ he)
  | extractProperty aliasName access type =>
    refine lowers_of_form hR _ ?_ (eventsOf_eq [] rfl rfl)
    rw [Exp.body]
    exact .pure .extractProperty
  | extractInstance aliasName =>
    refine lowers_of_form hR _ ?_ (eventsOf_eq [] rfl rfl)
    rw [Exp.body]
    exact .pure .extractInstance
  | subquery w =>
    refine lowers_of_form hR (S.selectEvents w) ?_ ?_
    · rw [Exp.body]
      exact spec_subquery (h (.select w) (List.mem_cons_self ..))
    · rw [eventsOf, Node.events_eq]
      exact List.flatMap_singleton ..
  | list values =>
    refine lowers_of_form hR _ ?_ (eventsOf_eq _ rfl rfl)
    rw [Exp.body, listOperands_eq]
    exact spec_list (lowers_exps h _ rfl)
  | typeList entries =>
    refine lowers_of_form hR _ ?_ (eventsOf_eq [] rfl rfl)
    rw [Exp.body]
    exact .violate rfl
  | window c filter overWindow => exact lowers_window hR h rfl
  | boolean lhs op rhs parenthesized =>
    have hexps := lowers_exps h [lhs, rhs] rfl
    refine lowers_of_form hR _ ?_ (eventsOf_eq [lhs, rhs] rfl rfl)
    rw [Exp.body, List.flatMap_cons, List.flatMap_singleton]
    exact spec_boolean (hexps lhs (by simp)) (hexps rhs (by simp))
  | not operand parenthesized =>
    have hexps := lowers_exps h [operand] rfl
    refine lowers_of_form hR _ ?_ (eventsOf_eq [operand] rfl rfl)
    rw [Exp.body, List.flatMap_singleton]
    exact spec_not (hexps _ (List.mem_singleton_self _))
  | between operand lower upper negated =>
    have hexps := lowers_exps h [operand, lower, upper] rfl
    refine lowers_of_form hR _ ?_ (eventsOf_eq [operand, lower, upper] rfl rfl)
    rw [Exp.body, List.flatMap_cons, List.flatMap_cons, List.flatMap_singleton]
    exact spec_between (hexps _ (by simp)) (hexps _ (by simp)) (hexps _ (by simp))
  | like operand pattern escape negated =>
    have hexps := lowers_exps h _ rfl
    refine lowers_of_form hR _ ?_ (eventsOf_eq _ rfl rfl)
    rw [Exp.body, optionOperand_eq, List.flatMap_cons, List.flatMap_cons]
    exact spec_like (hexps _ (by simp)) (hexps _ (by simp)) fun e he => hexps e (by simp [he])
  | quantified operand op quantifier w =>
    refine lowers_of_form hR (S.eventsOf operand ++ S.selectEvents w) ?_ ?_
    · rw [Exp.body]
      exact spec_quantified (h (.exp operand) (by simp [Exp.parts]))
        (h (.select w) (by simp [Exp.parts]))
    · rw [eventsOf, Node.events_eq]
      show [Node.exp operand, Node.select w].flatMap _ = _
      rw [List.flatMap_cons, List.flatMap_singleton]
      rfl
  | subqueryTest test w =>
    refine lowers_of_form hR (S.selectEvents w) ?_ ?_
    · rw [Exp.body]
      exact spec_subqueryTest (h (.select w) (List.mem_cons_self ..))
    · rw [eventsOf, Node.events_eq]
      exact List.flatMap_singleton ..

end Expressions

/-! ## Sources and selects -/

/-- The text of a source is as specified if it has the form that it has to have. -/
theorem reads_of_form {source : Source} (hR : R.Closed S) (events : List Event)
    (h : ∀ usageOf, S.Spec events (source.lower usageOf) (Source.Form S R source))
    (hevents : S.sourceEvents source = events) : S.Reads R source :=
  fun usageOf => ((h usageOf).congr hevents.symm).imp fun _ => hR.source

/-- A source is lowered as specified if its parts are, one kind at a time. -/
theorem reads_source {source : Source} (hR : R.Closed S)
    (h : ∀ m ∈ source.parts, S.Holds R m) : S.Reads R source := by
  cases source with
  | ofClass c =>
    refine reads_of_form hR [] (fun usageOf => ?_)
      (by rw [sourceEvents, Node.events_eq]; rfl)
    rw [Source.lower]
    exact spec_className.imp fun _ => .ofClass
  | join lhs rhs kind =>
    refine reads_of_form hR (S.sourceEvents lhs ++ (S.sourceEvents rhs
      ++ kind.exps.flatMap S.eventsOf)) (fun usageOf => ?_) ?_
    · rw [Source.lower, joinOperands_eq]
      refine spec_join (h (.source lhs) (by simp [Source.parts]))
        (h (.source rhs) (by simp [Source.parts])) fun e he => h (.exp e) ?_
      exact List.mem_cons_of_mem _ (List.mem_cons_of_mem _ (List.mem_map_of_mem he))
    · rw [sourceEvents, Node.events_eq]
      show (Node.source lhs :: Node.source rhs :: kind.exps.map Node.exp).flatMap _ = _
      rw [List.flatMap_cons, List.flatMap_cons, List.flatMap_map]
      rfl
  | subquery w aliasName =>
    refine reads_of_form hR (S.selectEvents w) (fun usageOf => ?_) ?_
    · rw [Source.lower]
      exact spec_sourceSubquery (h (.select w) (List.mem_cons_self ..))
    · rw [sourceEvents, Node.events_eq]
      exact List.flatMap_singleton ..
  | function c aliasName =>
    refine reads_of_form hR (.calls c.name :: S.argumentEvents c) (fun usageOf => ?_) ?_
    · rw [Source.lower, callOperands_eq]
      exact spec_sourceFunction fun e he => h (.exp e) (List.mem_map_of_mem he)
    · rw [sourceEvents, Node.events_eq, Node.written, Node.lowered, List.flatMap_map]
      show ([] ++ [c].flatMap _) ++ _ = _
      rw [List.nil_append, List.flatMap_singleton, FunctionCall.events, argumentEvents]
      rfl
  | commonTable name aliasName =>
    refine reads_of_form hR [] (fun usageOf => ?_)
      (by rw [sourceEvents, Node.events_eq]; rfl)
    rw [Source.lower]
    exact .pure .commonTable

/-- The parts of a single select are its expressions and its sources. -/
theorem parts_of_holds {c : SelectCore Exp Source} (h : ∀ m ∈ (Node.core c).parts, S.Holds R m) :
    S.Parts R c :=
  ⟨fun e he => h (.exp e) (List.mem_append_left _ (List.mem_map_of_mem he)),
    fun source hsource => h (.source source) (List.mem_append_right _ (List.mem_map_of_mem hsource))⟩

/-- Every node is lowered as specified. -/
theorem holds (hR : R.Closed S) (n : Node) : S.Holds R n := by
  -- expressions hold selects, which hold sources, which hold both again: one induction for all
  induction n using Node.induction with
  | h n ih =>
    cases n with
    | exp e => exact lowers_exp hR ih
    | source source => exact reads_source hR ih
    | core c => exact (parts_of_holds ih).cores hR
    | select w => exact selects_of_cores hR fun c hc => ih (.core c) (List.mem_map_of_mem hc)

end EntitySql.Setting
