import EntitySql.Proofs.TwoRuns.Value

/-!
# Calls and windows in two runs

Calls of functions, and the windows of window functions. The checks on a call depend on its name and
on the number of its arguments, and those on a window on its shape. The runs agree on both.
-/

namespace EntitySql

open Lowering
open Sql (Columns Fillings Fragment bracketed)

/-- The order of bounds does not depend on their offsets. -/
theorem FrameBound.rank_map {α β : Type} (g : α → β) (bound : FrameBound α) :
    (bound.map g).rank = bound.rank := by
  cases bound <;> rfl

namespace TwoRuns

variable {W : TwoRuns} {σ : List Scope}

/-! ## Calls -/

/-- The calls are alike, and the same follows them. -/
structure CallsAlike (W : TwoRuns) (l l' : LoweredCall) : Prop where
  call : W.FragmentsAlike l.call l'.call
  suffix : l.suffix = l'.suffix

/-- Alike calls are alike with their suffix. -/
theorem CallsAlike.sql {l l' : LoweredCall} (h : W.CallsAlike l l') :
    W.FragmentsAlike l.sql l'.sql := by
  rw [LoweredCall.sql, LoweredCall.sql, h.suffix]
  exact h.call.append (.refl _)

variable {c : FunctionCall Exp}

/-- Runs agree on arguments. -/
theorem agree_callArguments (h : ∀ e ∈ c.args, W.Lowers σ e) :
    W.Agree σ (callArguments (c.map Exp.operand)) (callArguments (c.map W.image))
      W.FragmentsAlike := by
  unfold callArguments
  by_cases hstar : c.star
  · simp only [FunctionCall.map, hstar, if_true]
    exact .pure (.refl _)
  · simp only [FunctionCall.map, hstar, Bool.false_eq_true, if_false, List.zipIdx_map]
    refine (Agree.mapM fun p hp => ?_).bind fun fs gs hfs => .pure (.join "," hfs)
    exact (h p.1 (List.fst_mem_of_mem_zipIdx hp)).single

/-- Runs agree on calls under a name. -/
theorem agree_callText {name : String} (h : ∀ e ∈ c.args, W.Lowers σ e) :
    W.Agree σ (callText name (c.map Exp.operand)) (callText name (c.map W.image))
      W.FragmentsAlike :=
  (agree_callArguments h).bind fun _ _ hfg => .pure (.append (.append (.refl _) hfg) (.refl _))

/-- What is made of a call of a known function. -/
theorem agree_callForm {function : FunctionDef} (h : ∀ e ∈ c.args, W.Lowers σ e) :
    W.Agree σ
      (match function.form with
        | .plain => do return ⟨← callText function.name (c.map Exp.operand), ""⟩
        | .aggregatePredicate native => do return ⟨← callText native (c.map Exp.operand), "<>0"⟩
        | .julianDay => return ⟨Fragment.ofText ("JULIANDAY(" ++ function.name ++ ")"), ""⟩)
      (match function.form with
        | .plain => do return ⟨← callText function.name (c.map W.image), ""⟩
        | .aggregatePredicate native => do return ⟨← callText native (c.map W.image), "<>0"⟩
        | .julianDay => return ⟨Fragment.ofText ("JULIANDAY(" ++ function.name ++ ")"), ""⟩)
      W.CallsAlike := by
  cases function.form with
  | plain | aggregatePredicate => exact (agree_callText h).bind fun _ _ hfg => .pure ⟨hfg, rfl⟩
  | julianDay => exact .pure ⟨.refl _, rfl⟩

/-- Runs agree on calls: they have the same functions. -/
theorem agree_call {site : CallSite} (h : ∀ e ∈ c.args, W.Lowers σ e) :
    W.Agree σ (call (c.map Exp.operand) site) (call (c.map W.image) site) W.CallsAlike := by
  have hfind : W.other.functions.find? (c.map W.image).name
      = W.env.functions.find? (c.map Exp.operand).name := rfl
  have hcount : (if (c.map W.image).star then 1 else (c.map W.image).args.length)
      = if (c.map Exp.operand).star then 1 else (c.map Exp.operand).args.length := by
    simp only [FunctionCall.map, List.length_map]
  refine .environment_bind (.guard Iff.rfl rfl ?_)
  rw [hfind]
  cases W.env.functions.find? (c.map Exp.operand).name with
  | none => exact (agree_callText h).bind fun _ _ hfg => .pure ⟨hfg, rfl⟩
  | some function =>
    dsimp only
    rw [hcount]
    split
    · exact (Agree.reject (R := fun _ _ => True)).bind fun _ _ _ => agree_callForm h
    · exact agree_callForm h

/-! ## Windows -/

/-- Runs agree on keys of orders. -/
theorem agree_sortKey {key : SortKey Exp} (h : W.Lowers σ key.exp) :
    W.Agree σ (sortKey (key.map Exp.operand)) (sortKey (key.map W.image)) W.ColumnsAlike :=
  h.lower.bind fun _ _ hfs => .pure (hfs.map fun _ _ hfg => hfg.append (.refl _))

/-- Runs agree on lists of keys. -/
theorem agree_sortKeys {keys : List (SortKey Exp)} (h : ∀ e ∈ keys.map (·.exp), W.Lowers σ e) :
    W.Agree σ (sortKeys (keys.map (.map Exp.operand))) (sortKeys (keys.map (.map W.image)))
      W.FragmentsAlike := by
  refine (Agree.mapM fun key hkey => agree_sortKey (h _ (List.mem_map_of_mem hkey))).bind
    fun ls ls' hls => .pure ?_
  exact .join "," (Fillings.ColumnsAlike.flatten hls)

/-- Runs agree on keys of partitions. -/
theorem agree_partitionKey {key : PartitionKey Exp} (h : W.Lowers σ key.exp) :
    W.Agree σ (partitionKey (key.map Exp.operand)) (partitionKey (key.map W.image))
      W.ColumnsAlike := by
  have hkey : (key.map W.image).exp.exp.isPartitionKey
      = (key.map Exp.operand).exp.exp.isPartitionKey :=
    Exp.isPartitionKey_mapTexts ..
  rw [partitionKey, partitionKey, hkey]
  refine .guard Iff.rfl rfl ?_
  refine h.lower.bind fun fs gs hfs => ?_
  obtain ⟨exp, collation⟩ := key
  cases collation with
  | none => exact .pure hfs
  | some collation => exact .pure (hfs.map fun _ _ hfg => hfg.append (.refl _))

/-- Runs agree on offsets of frames. -/
theorem agree_frameOffset {offset : Exp} {direction : String} (h : W.Lowers σ offset) :
    W.Agree σ (frameOffset offset.operand direction) (frameOffset (W.image offset) direction)
      W.FragmentsAlike :=
  h.single.bind fun _ _ hfg => .pure (hfg.append (.refl _))

/-- Runs agree on the start of a frame. -/
theorem agree_frameStart {bound : FrameStart Exp} (h : ∀ e ∈ bound.exps, W.Lowers σ e) :
    W.Agree σ (frameStart (bound.map Exp.operand)) (frameStart (bound.map W.image))
      W.FragmentsAlike := by
  cases bound with
  | currentRow | unboundedPreceding => exact .pure (.refl _)
  | preceding offset => exact agree_frameOffset (h offset (List.mem_singleton_self _))

/-- Runs agree on the bounds of a frame. -/
theorem agree_frameBound {bound : FrameBound Exp} (h : ∀ e ∈ bound.exps, W.Lowers σ e) :
    W.Agree σ (frameBound (bound.map Exp.operand)) (frameBound (bound.map W.image))
      W.FragmentsAlike := by
  cases bound with
  | currentRow | unboundedPreceding | unboundedFollowing => exact .pure (.refl _)
  | preceding offset | following offset =>
    exact agree_frameOffset (h offset (List.mem_singleton_self _))

/-- Runs agree on whether the bounds of a frame are in order. -/
theorem agree_frameExtent {extent : FrameExtent Exp} (h : ∀ e ∈ extent.exps, W.Lowers σ e) :
    W.Agree σ (frameExtent (extent.map Exp.operand)) (frameExtent (extent.map W.image))
      W.FragmentsAlike := by
  cases extent with
  | start bound => exact agree_frameStart h
  | between first second =>
    have hfirst := agree_frameBound fun e he => h e (List.mem_append_left _ he)
    have hsecond := agree_frameBound fun e he => h e (List.mem_append_right _ he)
    have hbefore : (first.map W.image).isBefore (second.map W.image)
        = (first.map Exp.operand).isBefore (second.map Exp.operand) := by
      simp only [FrameBound.isBefore, FrameBound.rank_map]
    rw [FrameExtent.map, FrameExtent.map, frameExtent, frameExtent, hbefore]
    refine .guard Iff.rfl rfl ?_
    refine hfirst.bind fun f f' hf => hsecond.bind fun g g' hg => .pure ?_
    exact .append (.append (.append (.refl _) hf) (.refl _)) hg

/-- Runs agree on frames. -/
theorem agree_frame {f : WindowFrame Exp} (h : ∀ e ∈ f.extent.exps, W.Lowers σ e) :
    W.Agree σ (frame (f.map Exp.operand)) (frame (f.map W.image)) W.FragmentsAlike :=
  (agree_frameExtent h).bind fun _ _ hfg => .pure (.append (.append (.refl _) hfg) (.refl _))

/-- Runs agree on whether there are keys of partitions. -/
theorem agree_partitionPart {keys : List (PartitionKey Exp)}
    (h : ∀ e ∈ keys.map (·.exp), W.Lowers σ e) :
    W.Agree σ (partitionPart (keys.map (.map Exp.operand)))
      (partitionPart (keys.map (.map W.image))) W.ColumnsAlike := by
  rw [partitionPart, partitionPart, List.isEmpty_map, List.isEmpty_map]
  split
  · exact .pure .nil
  · refine (Agree.mapM fun key hkey => agree_partitionKey (h _ (List.mem_map_of_mem hkey))).bind
      fun ls ls' hls => .pure (.singleton (.append (.refl _) ?_))
    exact .join "," (Fillings.ColumnsAlike.flatten hls)

/-- Runs agree on whether there are keys of orders. -/
theorem agree_orderPart {keys : List (SortKey Exp)} (h : ∀ e ∈ keys.map (·.exp), W.Lowers σ e) :
    W.Agree σ (orderPart (keys.map (.map Exp.operand))) (orderPart (keys.map (.map W.image)))
      W.ColumnsAlike := by
  rw [orderPart, orderPart, List.isEmpty_map, List.isEmpty_map]
  split
  · exact .pure .nil
  · exact (agree_sortKeys h).bind fun _ _ hfg => .pure (.singleton (.append (.refl _) hfg))

/-- Runs agree on whether there is a frame. -/
theorem agree_framePart {f : Option (WindowFrame Exp)}
    (h : ∀ e ∈ f.toList.flatMap (·.extent.exps), W.Lowers σ e) :
    W.Agree σ (framePart (f.map (.map Exp.operand))) (framePart (f.map (.map W.image)))
      W.ColumnsAlike := by
  cases f with
  | none => exact .pure .nil
  | some f =>
    rw [Option.toList_some, List.flatMap_singleton] at h
    exact (agree_frame h).bind fun _ _ hfg => .pure (.singleton hfg)

/-- Runs agree on windows. -/
theorem agree_windowSpec {window : WindowSpec Exp} (h : ∀ e ∈ window.exps, W.Lowers σ e) :
    W.Agree σ (windowSpec (window.map Exp.operand)) (windowSpec (window.map W.image))
      W.FragmentsAlike := by
  simp only [WindowSpec.exps, List.mem_append, or_imp, forall_and] at h
  obtain ⟨⟨hpartitionBy, horderBy⟩, hframe⟩ := h
  refine (agree_partitionPart hpartitionBy).bind fun p p' hp => ?_
  refine (agree_orderPart horderBy).bind fun o o' ho => ?_
  refine (agree_framePart hframe).bind fun f f' hf => .pure (.join " " ?_)
  exact List.rel_append (List.rel_append (List.rel_append (Fillings.ColumnsAlike.texts _ _) hp) ho) hf

/-- Runs agree on the windows of calls. -/
theorem agree_windowOver {overWindow : WindowOver Exp} (h : ∀ e ∈ overWindow.exps, W.Lowers σ e) :
    W.Agree σ (windowOver (overWindow.map Exp.operand)) (windowOver (overWindow.map W.image))
      W.FragmentsAlike := by
  cases overWindow with
  | spec window => exact (agree_windowSpec h).bind fun _ _ hfg => .pure hfg.parenthesized
  | name x => exact .pure (.refl _)

/-- Runs agree on windows with a name. -/
theorem agree_windowDefinition {definition : WindowDefinition Exp}
    (h : ∀ e ∈ definition.window.exps, W.Lowers σ e) :
    W.Agree σ (windowDefinition (definition.map Exp.operand))
      (windowDefinition (definition.map W.image)) W.FragmentsAlike :=
  (agree_windowSpec h).bind fun _ _ hfg => .pure (.append (.refl _) hfg.parenthesized)

/-- Runs agree on the clause that names windows. -/
theorem agree_windowClause {windows : List (WindowDefinition Exp)}
    (h : ∀ e ∈ windows.flatMap (·.window.exps), W.Lowers σ e) :
    W.Agree σ (windowClause (windows.map (.map Exp.operand)))
      (windowClause (windows.map (.map W.image))) W.FragmentsAlike := by
  refine (Agree.mapM fun definition hdefinition => agree_windowDefinition fun e he => ?_).bind
    fun fs gs hfs => .pure (.append (.refl _) (.join "," hfs))
  exact h e (List.mem_flatMap.2 ⟨definition, hdefinition, he⟩)

/-! ## Window functions -/

/-- Runs agree on filters. -/
theorem agree_windowFilter {filter : Option Exp} (h : ∀ e ∈ filter.toList, W.Lowers σ e) :
    W.Agree σ (windowFilter (filter.map Exp.operand)) (windowFilter (filter.map W.image))
      W.FragmentsAlike := by
  refine (agree_single? h).bind fun o o' ho => ?_
  cases ho with
  | none => exact .pure (.refl _)
  | some hfg => exact .pure (.append (.append (.refl _) hfg) (.refl _))

theorem agree_checkWindowFunction {functions : Registry} {name : String} :
    W.Agree σ (checkWindowFunction functions name) (checkWindowFunction functions name)
      fun _ _ => True := by
  unfold checkWindowFunction
  split
  · split
    · exact .reject
    · exact .pure trivial
  · exact .pure trivial

/-- Runs agree on calls over windows. -/
theorem agree_window {filter : Option Exp} {overWindow : WindowOver Exp}
    (hargs : ∀ e ∈ c.args, W.Lowers σ e) (hfilter : ∀ e ∈ filter.toList, W.Lowers σ e)
    (hover : ∀ e ∈ overWindow.exps, W.Lowers σ e) :
    W.Agree σ
      (window (c.map Exp.operand) (filter.map Exp.operand) (overWindow.map Exp.operand))
      (window (c.map W.image) (filter.map W.image) (overWindow.map W.image)) W.ColumnsAlike := by
  refine .environment_bind (agree_checkWindowFunction.bind fun _ _ _ => ?_)
  refine (agree_call hargs).bind fun l l' hl => (agree_windowFilter hfilter).bind fun f f' hf => ?_
  refine (agree_windowOver hover).bind fun o o' ho => .pure (.singleton ?_)
  rw [hl.suffix]
  exact (((hl.call.append hf).append (.refl _)).append ho).append (.refl _)

end TwoRuns

end EntitySql
