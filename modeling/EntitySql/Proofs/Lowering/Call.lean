import EntitySql.Proofs.Lowering.Value

/-!
# Calls and windows are lowered as specified

A call asks first whether the function is disabled; what the registry says about the function is the
same in all surroundings that agree. A window lists its parts with blanks between them.
-/

namespace EntitySql.Setting

open Lowering
open Sql (Columns Fragment bracketed)

variable {S : Setting} {R : Results}

/-! ## Calls -/

/-- Arguments are single columns. Their places are only needed to say what is wrong with them. -/
theorem spec_arguments {name : String} {args : List Exp} (h : ∀ e ∈ args, S.Lowers R e) (i : Nat) :
    S.Spec (args.flatMap S.eventsOf) (((args.map Exp.operand).zipIdx i).mapM fun arg =>
      arg.1.single ("Argument " ++ toString (arg.2 + 1) ++ " of function '" ++ name ++ "'"))
      (List.Forall₂ R.single args) := by
  induction args generalizing i with
  | nil => exact .pure .nil
  | cons e args ih =>
    obtain ⟨he, hargs⟩ := List.forall_mem_cons.1 h
    rw [List.map_cons, List.zipIdx_cons, List.mapM_cons, List.flatMap_cons]
    exact (he.single _).bind fun _ => (ih hargs (i + 1)).make fun _ hfs hf => .cons hf hfs

/-- The arguments of a call are a star, or single columns. -/
theorem spec_callArguments {c : FunctionCall Exp} (h : ∀ e ∈ c.args, S.Lowers R e) :
    S.Spec (if c.star then [] else c.args.flatMap S.eventsOf)
      (callArguments (c.map Exp.operand)) (c.Arguments R) := by
  rw [callArguments]
  show S.Spec _ (if c.star = true then _ else _) _
  cases hstar : c.star with
  | true => exact .pure (.star hstar)
  | false => exact (spec_arguments h 0).make fun _ hfs => .listed hstar hfs

/-- A call is written under the name that the function has in the database. -/
theorem spec_callText {c : FunctionCall Exp} {name suffix : String}
    (h : ∀ e ∈ c.args, S.Lowers R e) (hname : c.WrittenAs S.env.functions name suffix) :
    S.Spec (if c.star then [] else c.args.flatMap S.eventsOf)
      (do return ⟨← callText name (c.map Exp.operand), suffix⟩) (c.Form S R) := by
  have htext := (spec_callArguments h).make (Q := fun f => c.Form S R ⟨f, suffix⟩)
    (f := fun args => (name ++ "(" ++ c.quantifier.sql) ++ args ++ ")")
    fun args hargs => .written hname hargs
  exact htext.make fun _ => id

/-- A call asks for permission, and then looks the function up. -/
theorem call_eq (c : FunctionCall Operand) (site : CallSite) :
    call c site = (do
      checkFunction c.name
      let env ← environment
      match env.functions.find? c.name with
      | none => return ⟨← callText c.name c, ""⟩
      | some function =>
        if let some fault := callFault? function site (if c.star then 1 else c.args.length) then
          reject fault
        match function.form with
        | .plain => return ⟨← callText function.name c, ""⟩
        | .aggregatePredicate native => return ⟨← callText native c, "<>0"⟩
        | .julianDay => return ⟨Fragment.ofText ("JULIANDAY(" ++ function.name ++ ")"), ""⟩) := by
  funext env s
  simp only [call, checkFunction, bind_apply, environment]
  by_cases h : env.options.isDisabled c.name = true
  · simp only [h]
    rfl
  · simp only [h]
    rfl

/-- A call without fault has as many arguments as the function accepts. -/
theorem accepts_of_callFault? {function : FunctionDef} {site : CallSite} {count : Nat}
    (h : callFault? function site count = none) : function.accepts count = true := by
  rw [callFault?] at h
  split_ifs at h with _ _ haccepts
  simpa using haccepts

/-- What happens with the arguments of a call, once it is allowed. -/
def argumentEvents (S : Setting) (c : FunctionCall Exp) : List Event :=
  (if c.isUnacceptable S.env.functions then [.fails] else [])
    ++ (c.writtenArgs S.env.functions).flatMap S.eventsOf

/-- If a function writes its arguments, what happens with them happens with the call. -/
theorem argumentEvents_of_writes {c : FunctionCall Exp}
    (h : ∀ function ∈ S.env.functions.find? c.name, function.writesArguments = true) :
    S.argumentEvents c = if c.star then [] else c.args.flatMap S.eventsOf := by
  rw [argumentEvents, FunctionCall.isUnacceptable, FunctionCall.writtenArgs]
  cases hfind : S.env.functions.find? c.name with
  | none => cases c.star <;> rfl
  | some function =>
    rw [Option.any_some, Option.any_some, h function hfind]
    cases c.star <;> rfl

/-- A function that is written without arguments takes those that it is called with. -/
theorem argumentEvents_of_julianDay {c : FunctionCall Exp} {function : FunctionDef}
    (hfind : S.env.functions.find? c.name = some function) (hform : function.form = .julianDay)
    (haccepts : function.accepts c.argumentCount = true) : S.argumentEvents c = [] := by
  have hwrites : function.writesArguments = false := by rw [FunctionDef.writesArguments, hform]
  rw [argumentEvents, FunctionCall.isUnacceptable, FunctionCall.writtenArgs, hfind,
    Option.any_some, Option.any_some, hwrites, haccepts, Bool.or_comm]
  rfl

/-- A call is checked first, and then written in the form of its function. -/
theorem spec_call {c : FunctionCall Exp} {site : CallSite} (h : ∀ e ∈ c.args, S.Lowers R e) :
    S.Spec (.calls c.name :: S.argumentEvents c) (call (c.map Exp.operand) site) (c.Form S R) := by
  rw [call_eq]
  refine (Spec.checkFunction c.name).bind fun _ => .environment_bind (Spec.imp ?_ fun _ hc _ => hc)
    fun env hagree => by rw [hagree.functions]
  show S.Spec (S.argumentEvents c) (match S.env.functions.find? c.name with
    | none => _
    | some function => _) _
  split
  next hfind =>
    rw [argumentEvents_of_writes (by simp [hfind])]
    exact spec_callText h (.unknown hfind)
  next function hfind =>
    dsimp only
    split
    · exact .reject
    next hfault =>
      split
      next hform =>
        rw [argumentEvents_of_writes (by simp [hfind, FunctionDef.writesArguments, hform])]
        exact spec_callText h (.plain hfind hform)
      next native hform =>
        rw [argumentEvents_of_writes (by simp [hfind, FunctionDef.writesArguments, hform])]
        exact spec_callText h (.predicate hfind hform)
      next hform =>
        have haccepts := accepts_of_callFault? (Option.eq_none_iff_forall_ne_some.2 hfault)
        have hcount : (if (c.map Exp.operand).star then 1 else (c.map Exp.operand).args.length)
            = c.argumentCount := by
          rw [FunctionCall.argumentCount, FunctionCall.map, List.length_map]
        rw [hcount] at haccepts
        rw [argumentEvents_of_julianDay hfind hform haccepts]
        exact .pure (.julianDay hfind hform)

/-! ## Windows -/

/-- Each column of a key is sorted in the same direction. -/
theorem spec_sortKey {key : SortKey Exp} (h : S.Lowers R key.exp) :
    S.Spec (S.eventsOf key.exp) (sortKey (key.map Exp.operand)) (key.Form R) :=
  h.lower.make fun cs hcs => ⟨cs, hcs, rfl⟩

/-- Each column of a key is collated in the same way. -/
theorem spec_partitionKey {key : PartitionKey Exp} (h : S.Lowers R key.exp) :
    S.Spec (S.eventsOf key.exp) (partitionKey (key.map Exp.operand)) (key.Form R) := by
  rw [partitionKey]
  refine .guard fun _ => h.lower.before fun cs => ?_
  have hform (hcs : R.exp key.exp cs) : key.Form R (key.collated cs) := ⟨cs, hcs, rfl⟩
  obtain ⟨e, _ | collation⟩ := key
  · exact .pure hform
  · exact .pure hform

/-- The start of a frame, with its offset as one column. -/
theorem spec_frameStart {start : FrameStart Exp} (h : ∀ e ∈ start.exps, S.Lowers R e) :
    S.Spec (start.exps.flatMap S.eventsOf) (frameStart (start.map Exp.operand))
      (start.Form R) := by
  cases start with
  | currentRow => exact .pure .currentRow
  | unboundedPreceding => exact .pure .unboundedPreceding
  | preceding offset =>
    rw [FrameStart.exps, List.flatMap_singleton]
    exact ((h offset (List.mem_singleton_self _)).single _).make fun _ => .preceding

/-- The bound of a frame, with its offset as one column. -/
theorem spec_frameBound {bound : FrameBound Exp} (h : ∀ e ∈ bound.exps, S.Lowers R e) :
    S.Spec (bound.exps.flatMap S.eventsOf) (frameBound (bound.map Exp.operand))
      (bound.Form R) := by
  cases bound with
  | currentRow => exact .pure .currentRow
  | unboundedPreceding => exact .pure .unboundedPreceding
  | unboundedFollowing => exact .pure .unboundedFollowing
  | preceding offset =>
    rw [FrameBound.exps, List.flatMap_singleton]
    exact ((h offset (List.mem_singleton_self _)).single _).make fun _ => .preceding
  | following offset =>
    rw [FrameBound.exps, List.flatMap_singleton]
    exact ((h offset (List.mem_singleton_self _)).single _).make fun _ => .following

/-- The extent of a frame, as a start or between two bounds. -/
theorem spec_frameExtent {extent : FrameExtent Exp} (h : ∀ e ∈ extent.exps, S.Lowers R e) :
    S.Spec (extent.exps.flatMap S.eventsOf) (frameExtent (extent.map Exp.operand))
      (extent.Form R) := by
  cases extent with
  | start start => exact (spec_frameStart h).imp fun _ => .start
  | between first second =>
    obtain ⟨hfirst, hsecond⟩ := List.forall_mem_append.1 h
    rw [FrameExtent.exps, List.flatMap_append]
    show S.Spec _ (frameExtent (.between (first.map _) (second.map _))) _
    rw [frameExtent]
    exact .guard fun _ => (spec_frameBound hfirst).bind fun _ =>
      (spec_frameBound hsecond).make fun _ hg hf => .between hf hg

/-- The frame of a window, if it has one. -/
theorem spec_frame {frame : Option (WindowFrame Exp)}
    (h : ∀ e ∈ frame.toList.flatMap (·.extent.exps), S.Lowers R e) :
    S.Spec ((frame.toList.flatMap (·.extent.exps)).flatMap S.eventsOf)
      (framePart (frame.map (.map Exp.operand)))
      fun fs => ∃ f, Option.Rel (WindowFrame.Form R) frame f ∧ fs = f.toList := by
  cases frame with
  | none => exact .pure ⟨none, .none, rfl⟩
  | some frame =>
    simp only [Option.toList_some, List.flatMap_singleton] at h ⊢
    have hframe := (spec_frameExtent h).make (Q := frame.Form R) fun extent hextent =>
      ⟨extent, hextent, rfl⟩
    exact hframe.make fun f hf => ⟨some f, .some hf, rfl⟩

/-- The keys behind a keyword, if there are any. -/
theorem spec_keyPart {γ : Type} {keys : List γ} {step : γ → Lowering Columns}
    {events : γ → List Event} {Q : γ → Columns → Prop} (keyword : String)
    (h : ∀ key ∈ keys, S.Spec (events key) (step key) (Q key)) :
    S.Spec (keys.flatMap events)
      (if keys.isEmpty then pure []
        else do return [keyword ++ Fragment.join "," (← keys.mapM step).flatten])
      fun fs => ∃ lists, List.Forall₂ Q keys lists ∧ fs = keyPart keyword lists := by
  cases keys with
  | nil => exact .pure ⟨[], .nil, rfl⟩
  | cons key keys =>
    refine (Spec.mapM h).make fun lists hlists => ⟨lists, hlists, ?_⟩
    obtain ⟨first, rest, -, -, rfl⟩ := List.forall₂_cons_left_iff.1 hlists
    rfl

/-- A window is made of its base, its keys and its frame. -/
theorem spec_windowSpec {window : WindowSpec Exp} (h : ∀ e ∈ window.exps, S.Lowers R e) :
    S.Spec (window.exps.flatMap S.eventsOf) (windowSpec (window.map Exp.operand))
      (window.Form R) := by
  obtain ⟨base, partitionBy, orderBy, frame⟩ := window
  simp only [WindowSpec.exps, List.mem_append, or_imp, forall_and, List.forall_mem_map] at h
  obtain ⟨⟨hpartitionBy, horderBy⟩, hframe⟩ := h
  have hpartition := spec_keyPart "PARTITION BY " fun key hkey =>
    spec_partitionKey (hpartitionBy key hkey)
  have horder := spec_keyPart "ORDER BY " fun key hkey =>
    spec_sortKey (horderBy key hkey)
  have hpartitionPart : partitionPart (partitionBy.map (.map Exp.operand)) = (
      if partitionBy.isEmpty then pure []
      else do return ["PARTITION BY " ++ Fragment.join ","
        (← partitionBy.mapM (partitionKey ∘ .map Exp.operand)).flatten]) := by
    rw [partitionPart, List.isEmpty_map, List.mapM_map]
  have horderPart : orderPart (orderBy.map (.map Exp.operand)) = (
      if orderBy.isEmpty then pure []
      else do return ["ORDER BY " ++ Fragment.join ","
        (← orderBy.mapM (sortKey ∘ .map Exp.operand)).flatten]) := by
    rw [orderPart, List.isEmpty_map, sortKeys, List.mapM_map]
    simp only [bind_assoc, pure_bind]
  show S.Spec _ (windowSpec ⟨base, partitionBy.map (.map Exp.operand),
    orderBy.map (.map Exp.operand), frame.map (.map Exp.operand)⟩) _
  rw [windowSpec]
  dsimp only
  rw [hpartitionPart, horderPart]
  refine Spec.congr (hpartition.bind fun _ => horder.bind fun _ => (spec_frame hframe).make ?_)
    (by simp [WindowSpec.exps, List.flatMap_append, List.flatMap_map])
  rintro _ ⟨f, hf, rfl⟩ ⟨os, hos, rfl⟩ ⟨ps, hps, rfl⟩
  exact ⟨ps, os, f, hps, hos, hf, rfl⟩

/-- The window of a call, by name or as a whole. -/
theorem spec_windowOver {overWindow : WindowOver Exp} (h : ∀ e ∈ overWindow.exps, S.Lowers R e) :
    S.Spec (overWindow.exps.flatMap S.eventsOf) (windowOver (overWindow.map Exp.operand))
      (overWindow.Form R) := by
  cases overWindow with
  | spec window => exact (spec_windowSpec h).make fun _ => .spec
  | name x => exact .pure (.name x)

/-- A window with a name, in parentheses. -/
theorem spec_windowDefinition {definition : WindowDefinition Exp}
    (h : ∀ e ∈ definition.window.exps, S.Lowers R e) :
    S.Spec (definition.window.exps.flatMap S.eventsOf)
      (windowDefinition (definition.map Exp.operand)) (definition.Form R) :=
  (spec_windowSpec h).make fun g hg => ⟨g, hg, rfl⟩

/-- A call over a window: the call, a filter and the window. -/
theorem spec_window {c : FunctionCall Exp} {filter : Option Exp} {overWindow : WindowOver Exp}
    (hargs : ∀ e ∈ c.args, S.Lowers R e) (hfilter : ∀ e ∈ filter.toList, S.Lowers R e)
    (hover : ∀ e ∈ overWindow.exps, S.Lowers R e) :
    S.Spec ((.calls c.name :: S.argumentEvents c) ++ (filter.toList.flatMap S.eventsOf
        ++ overWindow.exps.flatMap S.eventsOf))
      (window (c.map Exp.operand) (filter.map Exp.operand) (overWindow.map Exp.operand))
      (Exp.Form S R (.window c filter overWindow)) := by
  have hcheck (functions : Registry) :
      S.Spec [] (checkWindowFunction functions c.name) fun _ => True := by
    rw [checkWindowFunction]
    split
    · exact .ite (fun _ => .reject) fun _ => .pure trivial
    · exact .pure trivial
  have hwhere : S.Spec (filter.toList.flatMap S.eventsOf) (windowFilter (filter.map Exp.operand))
      fun f => ∃ condition, Option.Rel R.single filter condition ∧ f = filterPart condition := by
    refine (spec_single? hfilter _).before fun condition => ?_
    cases condition with
    | none => exact .pure fun h => ⟨none, h, rfl⟩
    | some f => exact .pure fun h => ⟨some f, h, rfl⟩
  refine .environment_bind ((hcheck _).seq fun _ => ?_) fun env hagree => by rw [hagree.functions]
  refine (spec_call hargs).bind fun call => hwhere.bind fun _ => (spec_windowOver hover).make ?_
  rintro f hf ⟨condition, hcondition, rfl⟩ hcall
  exact .window hcall hcondition hf

end EntitySql.Setting
