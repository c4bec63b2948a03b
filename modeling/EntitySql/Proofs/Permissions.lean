import EntitySql.Proofs.WellFormed

/-!
# What options allow

Options can forbid functions, experimental syntax and deep expressions. They only ever make lowering
fail: under options that allow more, the run is the same as long as nothing forbidden is met. And
they are thorough: a statement that calls a disabled function anywhere is not lowered.

Both are inductions over the basic steps that lowering is composed of. Only three of these steps ask
the options for permission.
-/

namespace EntitySql

/-- Everything that some options allow is also allowed by others, which are otherwise the same. -/
structure Options.RelaxesTo (strict relaxed : Options) : Prop where
  pruneNestedViews : relaxed.pruneNestedViews = strict.pruneNestedViews
  functions : ∀ name, relaxed.isDisabled name = true → strict.isDisabled name = true
  experimental : strict.experimental = true → relaxed.experimental = true
  maxDepth : strict.maxDepth ≤ relaxed.maxDepth

/-- A statement is at fault only because of something that other options might allow. -/
def Fault.IsForbidden (fault : Fault) : Prop :=
  fault.id = .disabledFunction ∨ fault.id = .experimentalFeatureDisabled
    ∨ fault.id = .expressionTooDeep

/-- The result is a failure because of something that other options might allow. -/
def Refused {α : Type} (result : Except LoweringError α) : Prop :=
  ∃ fault : Fault, result = .error (.invalid fault) ∧ fault.IsForbidden

/-- The event does not let a step go on: the statement is at fault, or a disabled function is
called. -/
def Event.Stops (env : Environment) : Event → Prop
  | .fails => True
  | .calls name => env.options.isDisabled name = true
  | .binds _ => False

namespace Composed

open Lowering

variable {α : Type} {events : List Event} {x : Lowering α} {env : Environment}

/-! ## Relaxed options -/

/-- Under relaxed options, a step runs as before unless it was refused something. -/
theorem run_relaxed (h : Composed env events x) {relaxed : Options}
    (hrelaxed : env.options.RelaxesTo relaxed) (s : State) :
    Refused (x env s).1 ∨ x { env with options := relaxed } s = x env s := by
  have hagree : env.Agree { env with options := relaxed } :=
    ⟨rfl, rfl, rfl, rfl, hrelaxed.pruneNestedViews⟩
  induction h generalizing s with
  | basic h _ => exact .inr (h.environment _ _ s)
  | failing h _ _ => exact .inr (h.environment _ _ s)
  | @bind _ _ x next _ _ _ _ ih ihnext =>
    rcases ih s with ⟨fault, hfault, hforbidden⟩ | hsame
    · exact .inl ⟨fault, bind_error hfault, hforbidden⟩
    · rw [bind_apply, bind_apply, hsame]
      rcases x env s with ⟨_ | a, s'⟩
      · exact .inr rfl
      · exact ihnext a s'
  | @reading _ next _ _ hsame ih =>
    change Refused (next env env s).1 ∨ next _ { env with options := relaxed } s = next env env s
    rw [hsame _ hagree]
    exact ih s
  | checkFunction name =>
    rw [checkFunction_apply, checkFunction_apply]
    by_cases hstrict : env.options.isDisabled name = true
    · rw [if_pos hstrict]
      exact .inl ⟨.disabledFunction name, rfl, .inl rfl⟩
    · rw [if_neg hstrict, if_neg (mt (hrelaxed.functions name) hstrict)]
      exact .inr rfl
  | checkExperimental name =>
    rw [checkExperimental_apply, checkExperimental_apply]
    by_cases hstrict : env.options.experimental = true
    · rw [if_pos hstrict, if_pos (hrelaxed.experimental hstrict)]
      exact .inr rfl
    · rw [if_neg hstrict]
      exact .inl ⟨.experimentalFunction name, rfl, .inr (.inl rfl)⟩
  | bindParameter => exact .inr rfl
  | @nested _ x _ _ ih =>
    by_cases hdeep : env.options.maxDepth.toNat < s.depth + 1
    · refine .inl ⟨.tooDeep env.options.maxDepth.toNat, ?_, .inr (.inr rfl)⟩
      rw [Lowering.nested, if_pos hdeep]
      rfl
    · have hmax := UInt64.le_iff_toNat_le.1 hrelaxed.maxDepth
      have hrelaxed' : ¬relaxed.maxDepth.toNat < s.depth + 1 := by omega
      rw [Lowering.nested, if_neg hdeep, Lowering.nested, if_neg hrelaxed']
      rcases ih { s with depth := s.depth + 1 } with hrefused | hsame
      · exact .inl hrefused
      · exact .inr (by rw [hsame])
  | @withScope _ scope x _ _ ih =>
    rcases ih { s with scopes := scope :: s.scopes } with hrefused | hsame
    · exact .inl hrefused
    · exact .inr (by rw [Lowering.withScope, Lowering.withScope, hsame])
  | @capture x _ _ ih =>
    rcases ih { s with buffer := s.buffer.pushFrame } with ⟨fault, hfault, hforbidden⟩ | hsame
    · refine .inl ⟨fault, ?_, hforbidden⟩
      show (x env { s with buffer := s.buffer.pushFrame }).1.map _ = _
      rw [hfault]
      rfl
    · exact .inr (by rw [Lowering.capture, Lowering.capture, hsame])

/-! ## Forbidden calls -/

/-- A step fails if one of its events does not let it go on. -/
theorem exists_error (h : Composed env events x) {event : Event} (hevent : event ∈ events)
    (hstops : event.Stops env) (s : State) : ∃ error, (x env s).1 = .error error := by
  induction h generalizing s with
  | basic | checkExperimental => cases hevent
  | failing _ _ hfails => exact hfails env s
  | @bind _ _ x next _ _ _ _ ih ihnext =>
    rcases List.mem_append.1 hevent with hevent | hevent
    · obtain ⟨error, herror⟩ := ih hevent s
      exact ⟨error, bind_error herror⟩
    · rw [bind_apply]
      rcases x env s with ⟨error | a, s'⟩
      · exact ⟨error, rfl⟩
      · exact ihnext a hevent s'
  | reading _ _ ih => exact ih hevent s
  | checkFunction name =>
    obtain rfl := List.mem_singleton.1 hevent
    have hdisabled : env.options.isDisabled name = true := hstops
    rw [checkFunction_apply, if_pos hdisabled]
    exact ⟨.invalid (.disabledFunction name), rfl⟩
  | bindParameter parameter =>
    obtain rfl := List.mem_singleton.1 hevent
    exact hstops.elim
  | nested _ ih =>
    rw [Lowering.nested]
    split
    · exact ⟨_, rfl⟩
    · exact ih hevent _
  | withScope _ ih => exact ih hevent _
  | @capture x _ _ ih =>
    obtain ⟨error, herror⟩ := ih hevent { s with buffer := s.buffer.pushFrame }
    refine ⟨error, ?_⟩
    show (x env { s with buffer := s.buffer.pushFrame }).1.map _ = _
    rw [herror]
    rfl

end Composed

/-! ## Statements -/

/-- No text stands in for a select, and all built-in functions are known. -/
theorem Environment.complete_builtin (catalog : Catalog) (options : Options) :
    (Environment.of catalog options .builtin).Complete where
  texts := rfl
  julianDay := by
    have hmax : ∀ function ∈ Builtin.functions, function.form = .julianDay →
        function.maxArgs = some 0 := by
      decide
    intro function hfunction hform count haccepts
    rw [FunctionDef.accepts, hmax function hfunction hform] at haccepts
    simpa using (Bool.and_eq_true_iff.1 haccepts).2

namespace Statement

variable {statement : Statement} {env : Environment}

/-- An error while a statement is prepared is the result of lowering it. -/
theorem lower_error {error : LoweringError}
    (hallowed : (!env.primary && statement.kind ≠ .select) = false)
    (h : ((do statement.write; finish : Lowering String) env .initial).1 = .error error) :
    (statement.lower env).1 = .error error := by
  rw [lower, prepare, hallowed, if_neg Bool.false_ne_true]
  dsimp only
  rw [h]
  rfl

/-- Under relaxed options, a statement is lowered as before unless it was refused something. -/
theorem lower_relaxed {relaxed : Options} (hrelaxed : env.options.RelaxesTo relaxed)
    (statement : Statement) :
    Refused (statement.lower env).1
      ∨ statement.lower { env with options := relaxed } = statement.lower env := by
  have hcomposed := statement.composed_write_finish env
  cases hallowed : !env.primary && statement.kind ≠ .select with
  | false =>
    rcases hcomposed.run_relaxed hrelaxed .initial with ⟨fault, hfault, hforbidden⟩ | hsame
    · exact .inl ⟨fault, lower_error hallowed hfault, hforbidden⟩
    · rw [lower, lower, prepare, prepare, hsame]
      exact .inr rfl
  | true =>
    -- the statement is not allowed on the connection, whatever the options
    rw [lower, lower, prepare, prepare, if_pos hallowed, if_pos hallowed]
    exact .inr rfl

/-- Relaxing the options never changes a successful result, and a statement that can be lowered
under relaxed options gives the same result under the strict ones or is refused something. -/
theorem lower_eq_ok_of_relaxesTo {relaxed : Options} (hrelaxed : env.options.RelaxesTo relaxed)
    (statement : Statement) (lowered : LoweredStatement) :
    ((statement.lower env).1 = .ok lowered →
        (statement.lower { env with options := relaxed }).1 = .ok lowered)
      ∧ ((statement.lower { env with options := relaxed }).1 = .ok lowered →
        (statement.lower env).1 = .ok lowered ∨ Refused (statement.lower env).1) := by
  rcases lower_relaxed hrelaxed statement with hrefused | hsame
  · refine ⟨fun h => ?_, fun _ => .inr hrefused⟩
    obtain ⟨fault, hfault, -⟩ := hrefused
    rw [h] at hfault
    cases hfault
  · rw [hsame]
    exact ⟨id, .inl⟩

/-- A statement that calls a disabled builtin function anywhere is not lowered, however the name is
spelled. -/
theorem exists_error_of_disabled {catalog : Catalog} {options : Options} {disabled : String}
    (hdisabled : disabled ∈ options.disabledFunctions.toList) (hstars : statement.StarsAlone)
    (hcalls : statement.Calls fun name => Text.sameName disabled name = true) :
    ∃ error, (statement.lower (.of catalog options .builtin)).1 = .error error := by
  have hcomposed := statement.composed_write_finish (.of catalog options .builtin)
  have hcomplete := Environment.complete_builtin catalog options
  obtain ⟨error, herror⟩ : ∃ error, ((do statement.write; finish : Lowering String)
      (.of catalog options .builtin) .initial).1 = .error error := by
    rcases events_of_calls hcomplete hstars hcalls with hfails | ⟨name, hname, hcall⟩
    · exact hcomposed.exists_error hfails trivial .initial
    · exact hcomposed.exists_error hcall (List.any_eq_true.2 ⟨disabled, hdisabled, hname⟩) .initial
  exact ⟨error, lower_error rfl herror⟩

end Statement

namespace Sample

/-- Options under which the absolute value may not be called. -/
def withoutAbs : Options :=
  { Options.default.disable "ABS" with maxDepth := 6 }

theorem withoutAbs_relaxesTo :
    withoutAbs.RelaxesTo { Options.default with experimental := true } where
  pruneNestedViews := rfl
  functions _ h := absurd h Bool.false_ne_true
  experimental h := absurd h Bool.false_ne_true
  maxDepth := by decide

/-- A statement that calls nothing and is not too deep gives the same SQL if more is allowed. -/
theorem lower_deletion_relaxed : ∃ lowered,
    (deletion.lower (.of catalog withoutAbs .builtin)).1 = .ok lowered
      ∧ (deletion.lower (.of catalog { Options.default with experimental := true } .builtin)).1
        = .ok lowered := by
  obtain ⟨lowered, hlowered⟩ := Except.exists_eq_ok
    (x := (deletion.lower (.of catalog withoutAbs .builtin)).1) (by decide +kernel)
  refine ⟨lowered, hlowered, ?_⟩
  have hrelaxes : (Environment.of catalog withoutAbs .builtin).options.RelaxesTo
      { Options.default with experimental := true } := withoutAbs_relaxesTo
  exact (Statement.lower_eq_ok_of_relaxesTo hrelaxes deletion lowered).1 hlowered

/-- The call `abs(COUNT(*))`. -/
def absCount : Exp :=
  .call ⟨"abs", [.call ⟨"COUNT", [], .all, true, .primitive .long⟩], .all, false, .unknown⟩

/-- Deletes the elements whose code is one of the names, if `abs(COUNT(*))` is true of these. -/
def deletionByCount : Statement :=
  .delete ⟨⟨12, "ts", "SpatialElement", none, true⟩,
    some (.quantified (.property ⟨"e", ["Code"], .ofClass 12, .primitive .string⟩) .eq .any
      ⟨{ otherNames with having := some absCount }, []⟩)⟩

theorem starsAlone_deletionByCount : deletionByCount.StarsAlone := by
  have hleaf {n : Node} (hown : n.ownCalls = []) (hparts : n.parts = []) : n.StarsAlone := by
    rw [Node.starsAlone_iff, hown, hparts]
    simp
  have hcount : (Node.exp absCount).StarsAlone := by
    refine Node.starsAlone_iff.2 ⟨by decide, List.forall_mem_singleton.2 ?_⟩
    exact Node.starsAlone_iff.2 ⟨by decide, List.forall_mem_nil _⟩
  have hcondition : ∀ m ∈ [Node.exp (.property ⟨"w", ["Name"], .ofClass 20, .primitive .string⟩),
      .exp (.literal (.ofValue (.string "it's (]")))], m.StarsAlone := by
    exact List.forall_mem_cons.2 ⟨hleaf rfl rfl, List.forall_mem_singleton.2 (hleaf rfl rfl)⟩
  have hcore : (Node.core { otherNames with having := some absCount }).StarsAlone := by
    refine Node.starsAlone_iff.2 ⟨by decide, List.forall_mem_cons.2 ⟨hleaf rfl rfl, ?_⟩⟩
    refine List.forall_mem_cons.2 ⟨Node.starsAlone_iff.2 ⟨by decide, hcondition⟩, ?_⟩
    exact List.forall_mem_cons.2 ⟨hcount, List.forall_mem_singleton.2 (hleaf rfl rfl)⟩
  refine List.forall_mem_singleton.2 (Node.starsAlone_iff.2 ⟨by decide, ?_⟩)
  refine List.forall_mem_cons.2 ⟨hleaf rfl rfl, List.forall_mem_singleton.2 ?_⟩
  exact Node.starsAlone_iff.2 ⟨by decide, List.forall_mem_singleton.2 hcore⟩

theorem calls_deletionByCount :
    deletionByCount.Calls fun name => Text.sameName "ABS" name = true := by
  refine ⟨_, List.mem_singleton_self _, .exp absCount, ?_, _, List.mem_singleton_self _, by decide⟩
  have hcore : (Node.exp absCount).Within (.core { otherNames with having := some absCount }) :=
    .part (List.mem_cons_of_mem _ (List.mem_cons_of_mem _ (List.mem_cons_self ..))) .self
  exact .part (List.mem_cons_of_mem _ (List.mem_singleton_self _))
    (.part (List.mem_singleton_self _) hcore)

/-- The disabled function is spelled differently, and called deep inside of the statement. -/
theorem exists_error_deletionByCount : ∃ error,
    (deletionByCount.lower (.of catalog withoutAbs .builtin)).1 = .error error :=
  Statement.exists_error_of_disabled (by decide) starsAlone_deletionByCount calls_deletionByCount

end Sample

end EntitySql
