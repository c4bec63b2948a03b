import EntitySql.Proofs.Lowering.Meets

/-!
# Steps that write, and steps that fill an anchor

A select is lowered to output, which `Setting.Writes` specifies, and an expression that contains it
captures this output (`Meets.capture`). If an anchor waits for the select, the select also puts its
parts into the anchor on the way. `Setting.Fills` specifies such a step: but for this one anchor,
which was there before, it handles the state as any other step does.
-/

namespace EntitySql

open Sql (AnchorId AnchorState AnchorTable CapturedSelect Fragment)

namespace Setting

variable {S : Setting} {α β : Type} {s s' s'' : State}

/-! ## Output -/

/-- How a step ends that starts in the state `s` and writes output for which `R` holds. -/
def Written (S : Setting) (R : Fragment → Prop) (s : State)
    (result : Except LoweringError Unit × State) : Prop :=
  ∃ output, s.buffer.Extends result.2.buffer output
    ∧ S.Outcome (fun _ => R output) s (result.1, { result.2 with buffer := s.buffer })

/-- The step writes output for which `R` holds, and handles the rest of the state as it has to. -/
def Writes (S : Setting) (step : Lowering Unit) (R : Fragment → Prop) : Prop :=
  ∀ s, S.Ready s → S.Written R s (step S.env s)

/-- The rule for the output of a step, caught before it reaches the buffer. -/
theorem Meets.capture {step : Lowering Unit} {R R' : Fragment → Prop} (h : S.Writes step R)
    (hsymbols : ∀ f g, f.symbols = g.symbols → R f → R' g) :
    S.Meets (Lowering.capture step) R' := by
  intro s hs
  obtain ⟨output, hextends, houtcome⟩ :=
    h { s with buffer := s.buffer.pushFrame } ⟨hs.pending, hs.parameters⟩
  rw [Lowering.capture]
  rcases hend : step S.env { s with buffer := s.buffer.pushFrame } with ⟨result, s'⟩
  rw [hend] at hextends houtcome
  obtain ⟨hbuffer, hpopped⟩ := hextends.popFrame
  exact Outcome.enclosed (Outcome.map houtcome fun _ hR => hsymbols output _ hpopped.symm hR)
    rfl rfl fun hkeeps => hkeeps.withBuffer hbuffer

namespace Writes

variable {step next : Lowering Unit} {R R' : Fragment → Prop}

/-- What is known of the output may be weakened. -/
theorem imp (h : S.Writes step R) (himp : ∀ output, R output → R' output) :
    S.Writes step R' := by
  intro s hs
  obtain ⟨output, hextends, houtcome⟩ := h s hs
  exact ⟨output, hextends, houtcome.imp fun _ => himp output⟩

theorem pure (h : R .empty) : S.Writes (Pure.pure ()) R :=
  fun s hs => ⟨.empty, .refl s.buffer, Success.refl hs h⟩

/-- Appended output is what was appended. -/
theorem append {output : Fragment} (h : R output) : S.Writes (Lowering.append output) R :=
  fun s hs => ⟨output, .append s.buffer output, Success.refl hs h⟩

theorem reject_bind {fault : Fault} {next : α → Lowering Unit} :
    S.Writes (Lowering.reject fault >>= next) R :=
  fun s hs => ⟨.empty, .refl s.buffer, Meets.reject s hs⟩

/-- The rule for a step that writes, after one that has a result. -/
theorem after {first : Lowering α} {next : α → Lowering Unit} {Q : α → Prop}
    (h : S.Meets first Q) (hnext : ∀ a, S.Writes (next a) fun output => Q a → R output) :
    S.Writes (first >>= next) R := by
  intro s hs
  have hfirst := h s hs
  rw [Lowering.bind_apply]
  rcases hend : first S.env s with ⟨_ | a, s'⟩ <;> rw [hend] at hfirst
  · have hkeeps : s.Keeps s' := hfirst.keeps
    refine ⟨.empty, hkeeps.extends_empty, ?_⟩
    rw [hkeeps.restore_buffer]
    exact hfirst
  · have hbuffer : s'.buffer = s.buffer := hfirst.keeps.buffer
    obtain ⟨output, hextends, houtcome⟩ := hnext a s' (Success.ready hfirst hs)
    rw [hbuffer] at hextends houtcome
    exact ⟨output, hextends, Success.outcome hfirst houtcome⟩

/-- The rule for a step that writes, after another one. -/
theorem seq {Q Q' : Fragment → Prop} (h : S.Writes step Q) (hnext : S.Writes next Q')
    (happend : ∀ f g, Q f → Q' g → R (f ++ g)) : S.Writes (step >>= fun _ => next) R := by
  intro s hs
  obtain ⟨f, hextends, houtcome⟩ := h s hs
  rw [Lowering.bind_apply]
  rcases hend : step S.env s with ⟨_ | a, s'⟩ <;> rw [hend] at hextends houtcome
  · exact ⟨f, hextends, houtcome⟩
  · obtain ⟨g, hextends', houtcome'⟩ :=
      hnext s' ⟨houtcome.keeps.pending.trans hs.pending, houtcome.parameters⟩
    refine ⟨f ++ g, hextends.trans hextends', Success.outcome houtcome ?_⟩
    -- the second step starts with what the first one has written, which is left out here
    exact Outcome.enclosed (houtcome'.imp fun _ hg hf => happend f g hf hg) rfl rfl
      fun hkeeps => hkeeps.withBuffer (s := { s' with buffer := s.buffer }) rfl

/-- The rule for a step that writes in a scope of its own. -/
theorem withScope {scope : Scope} (h : S.Writes step R) :
    S.Writes (Lowering.withScope scope step) R := by
  intro s hs
  obtain ⟨output, hextends, houtcome⟩ :=
    h { s with scopes := scope :: s.scopes } ⟨hs.pending, hs.parameters⟩
  exact ⟨output, hextends, Outcome.enclosed houtcome rfl rfl State.Keeps.popScope⟩

theorem environment_bind {next : Environment → Lowering Unit} (h : S.Writes (next S.env) R) :
    S.Writes (Lowering.environment >>= next) R :=
  h

theorem isOutermost_bind {next : Bool → Lowering Unit} (h : ∀ b, S.Writes (next b) R) :
    S.Writes (Lowering.isOutermost >>= next) R :=
  fun s hs => h s.scopes.isEmpty s hs

/-- No anchor is pending where a statement is written by itself. -/
theorem takePending_bind {next : Option AnchorId → Lowering Unit} (h : S.Writes (next none) R) :
    S.Writes (Lowering.takePending >>= next) R := by
  intro s hs
  have hpending : s = { s with pending := none } := by rw [← hs.pending]
  have hend : (Lowering.takePending >>= next) S.env s = next none S.env s := by
    rw [Lowering.bind_apply, Lowering.takePending, hs.pending, ← hpending]
  rw [hend]
  exact h s hs

end Writes

end Setting

/-! ## Filling an anchor -/

namespace Sql.AnchorTable

variable {t u : AnchorTable} {id : AnchorId} {entry : AnchorState}

/-- Entries stay where they are if others are added. -/
theorem get?_of_prefix (h : t.entries <+: u.entries) (hid : t.get? id = some entry) :
    u.get? id = some entry := by
  obtain ⟨hlt, hget⟩ := List.getElem?_eq_some_iff.1 hid
  rw [get?, List.prefix_iff_getElem?.1 h _ hlt, hget]

/-- The same entry may be set before and after others are added. -/
theorem prefix_set (h : t.entries <+: u.entries) (hid : id.index < t.entries.length) :
    (t.set id entry).entries <+: (u.set id entry).entries := by
  obtain ⟨added, hadded⟩ := h
  refine ⟨added, ?_⟩
  rw [set, set, ← hadded, List.set_append_left _ _ hid]

/-- The same entry may be set before and after a table grows. -/
theorem GrowsTo.set (h : t.GrowsTo u) (hid : id.index < t.entries.length) :
    (t.set id entry).GrowsTo (u.set id entry) := by
  obtain ⟨added, hadded⟩ := h
  refine ⟨added, ?_⟩
  rw [AnchorTable.set, AnchorTable.set, hadded, List.set_append_left _ _ hid]

/-- A table knows more once an anchor is resolved that was not. -/
theorem le_set (h : t.resolved? id = none) : t ≤ t.set id entry := by
  intro other replacement hr
  have hne : id.index ≠ other.index := by
    intro heq
    rw [show other = id from congrArg AnchorId.mk heq.symm, h] at hr
    cases hr
  rw [resolved?, get?] at hr ⊢
  rwa [set, List.getElem?_set_ne hne]

/-- A reserved anchor is not resolved. -/
theorem resolved?_of_reserved (h : t.get? id = some .reserved) : t.resolved? id = none := by
  rw [resolved?, h]

/-- Setting an entry to what it is changes nothing. -/
theorem set_self (h : t.get? id = some entry) : t.set id entry = t := by
  obtain ⟨hlt, hget⟩ := List.getElem?_eq_some_iff.1 h
  rw [set, ← hget, List.set_getElem_self]

end Sql.AnchorTable

/-- The state with something else in one of the anchors. -/
def State.setAnchor (s : State) (id : AnchorId) (entry : AnchorState) : State :=
  { s with anchors := s.anchors.set id entry }

/-- The last entry of an anchor counts. -/
theorem State.setAnchor_setAnchor (s : State) (id : AnchorId) (entry entry' : AnchorState) :
    (s.setAnchor id entry).setAnchor id entry' = s.setAnchor id entry' := by
  rw [setAnchor, setAnchor, setAnchor, AnchorTable.set, AnchorTable.set, List.set_set]
  rfl

namespace Setting

variable {S : Setting} {α β : Type} {s s' s'' : State} {id : AnchorId} {entry : AnchorState}

/-- How a step ends that starts in the state `s` and puts the parts of a subquery into an anchor. -/
def Filled (S : Setting) (id : AnchorId) (R : CapturedSelect → α → Prop) (s : State) :
    Except LoweringError α × State → Prop
  | (.ok a, s') => ∃ select, S.Success (R select) (s.setAnchor id (.captured select)) a s'
  | (.error error, s') => ∃ entry, S.Failure (s.setAnchor id entry) error s'

/-- The step puts the parts of a subquery into a reserved anchor, has a result for which `R` holds,
and handles the rest of the state as it has to. -/
def Fills (S : Setting) (id : AnchorId) (step : Lowering α) (R : CapturedSelect → α → Prop) :
    Prop :=
  ∀ s, S.Ready s → s.anchors.get? id = some .reserved → S.Filled id R s (step S.env s)

/-- A step that leaves an anchor alone does the same whatever is in it. -/
theorem Success.setAnchor {R : α → Prop} {a : α} {old : AnchorState} (h : S.Success R s a s')
    (hid : s.anchors.get? id = some old) (hold : s.anchors.resolved? id = none)
    (entry : AnchorState) :
    S.Success R (s.setAnchor id entry) a (s'.setAnchor id entry) := by
  have hlt : id.index < s.anchors.entries.length := (List.getElem?_eq_some_iff.1 hid).1
  have hold' : s'.anchors.resolved? id = none := by
    rw [AnchorTable.resolved?, AnchorTable.get?_of_prefix h.keeps.anchors hid]
    rwa [AnchorTable.resolved?, hid] at hold
  refine ⟨?_, h.anchors.set hlt, h.issues, h.parameters, ?_⟩
  · exact ⟨h.keeps.buffer, h.keeps.scopes, h.keeps.depth, h.keeps.pending,
      AnchorTable.prefix_set h.keeps.anchors hlt, h.keeps.parameters⟩
  · intro hfinal
    exact h.result (AnchorTable.le_trans (AnchorTable.le_set hold') hfinal)

namespace Fills

variable {R : CapturedSelect → β → Prop}

/-- The rule for a step that fills an anchor, after one that does not. -/
theorem after {first : Lowering α} {next : α → Lowering β} {Q : α → Prop} (h : S.Meets first Q)
    (hnext : ∀ a, S.Fills id (next a) fun select b => Q a → R select b) :
    S.Fills id (first >>= next) R := by
  intro s hs hid
  have hfirst := h s hs
  rw [Lowering.bind_apply]
  rcases hend : first S.env s with ⟨_ | a, s'⟩ <;> rw [hend] at hfirst
  · refine ⟨.reserved, ?_⟩
    rw [State.setAnchor, AnchorTable.set_self hid]
    exact hfirst
  · -- the first step leaves the anchor alone, so it might as well find it filled
    have hset := Success.setAnchor hfirst hid (AnchorTable.resolved?_of_reserved hid)
    have hnext := hnext a s' (Success.ready hfirst hs)
      (AnchorTable.get?_of_prefix hfirst.keeps.anchors hid)
    show S.Filled id R s (next a S.env s')
    rcases hend' : next a S.env s' with ⟨_ | b, s''⟩ <;> rw [hend'] at hnext
    · obtain ⟨entry, hfailure⟩ := hnext
      exact ⟨entry, (hset entry).failure hfailure⟩
    · obtain ⟨select, hsuccess⟩ := hnext
      exact ⟨select, (hset (.captured select)).trans hsuccess⟩

/-- The rule for the step that fills the anchor, and what comes after it. -/
theorem captureAt_bind {select : CapturedSelect} {next : Unit → Lowering β} {Q : β → Prop}
    (h : S.Meets (next ()) Q) (himp : ∀ b, Q b → R select b) :
    S.Fills id (Lowering.captureAt id select >>= next) R := by
  intro s hs hid
  have hcapture : (Lowering.captureAt id select >>= next) S.env s
      = next () S.env (s.setAnchor id (.captured select)) := by
    rw [Lowering.bind_apply, Lowering.captureAt, AnchorTable.capture, hid]
    rfl
  have hnext := h (s.setAnchor id (.captured select)) ⟨hs.pending, hs.parameters⟩
  rw [hcapture]
  rcases hend : next () S.env (s.setAnchor id (.captured select)) with ⟨_ | b, s'⟩ <;>
    rw [hend] at hnext
  · exact ⟨_, hnext⟩
  · exact ⟨select, Success.imp hnext (himp b)⟩

/-- The rule for a step that fills an anchor in a scope of its own. -/
theorem withScope {scope : Scope} {step : Lowering β} (h : S.Fills id step R) :
    S.Fills id (Lowering.withScope scope step) R := by
  intro s hs hid
  have hstep := h { s with scopes := scope :: s.scopes } ⟨hs.pending, hs.parameters⟩ hid
  rw [Lowering.withScope]
  rcases hend : step S.env { s with scopes := scope :: s.scopes } with ⟨_ | b, s'⟩ <;>
    rw [hend] at hstep
  · obtain ⟨entry, hfailure⟩ := hstep
    exact ⟨entry, Failure.enclosed hfailure (State.Keeps.popScope (s := s.setAnchor id entry))⟩
  · obtain ⟨select, hsuccess⟩ := hstep
    exact ⟨select, Success.enclosed hsuccess rfl rfl
      (State.Keeps.popScope (s := s.setAnchor id (.captured select)))⟩

end Fills

/-- The step puts the parts of a subquery into a reserved anchor, writes output for which `R` holds,
and handles the rest of the state as it has to. -/
def FillsWriting (S : Setting) (id : AnchorId) (step : Lowering Unit)
    (R : CapturedSelect → Fragment → Prop) : Prop :=
  ∀ s, S.Ready s → s.anchors.get? id = some .reserved → ∃ output,
    s.buffer.Extends (step S.env s).2.buffer output
      ∧ S.Filled id (fun select _ => R select output) s
        ((step S.env s).1, { (step S.env s).2 with buffer := s.buffer })

/-- A step that filled its anchor at the start has filled it. -/
theorem Outcome.filled {R : CapturedSelect → α → Prop} {select : CapturedSelect}
    {result : Except LoweringError α × State}
    (h : S.Outcome (R select) (s.setAnchor id (.captured select)) result) :
    S.Filled id R s result := by
  obtain ⟨_ | a, s'⟩ := result
  · exact ⟨_, h⟩
  · exact ⟨select, h⟩

/-- The rule for a step that writes, after one that fills an anchor. -/
theorem Fills.writes {first : Lowering α} {next : α → Lowering Unit} {Q : CapturedSelect → α → Prop}
    {Q' : α → Fragment → Prop} {R : CapturedSelect → Fragment → Prop} (h : S.Fills id first Q)
    (hnext : ∀ a, S.Writes (next a) (Q' a))
    (himp : ∀ select a output, Q select a → Q' a output → R select output) :
    S.FillsWriting id (first >>= next) R := by
  intro s hs hid
  have hfirst := h s hs hid
  rw [Lowering.bind_apply]
  rcases hend : first S.env s with ⟨_ | a, s'⟩ <;> rw [hend] at hfirst
  · obtain ⟨entry, hfailure⟩ := hfirst
    refine ⟨.empty, hfailure.keeps.extends_empty, entry, ?_⟩
    have hrestore : { s' with buffer := s.buffer } = s' := hfailure.keeps.restore_buffer
    rw [hrestore]
    exact hfailure
  · obtain ⟨select, hsuccess⟩ := hfirst
    have hbuffer : s'.buffer = s.buffer := hsuccess.keeps.buffer
    obtain ⟨output, hextends, houtcome⟩ := hnext a s' (hsuccess.ready ⟨hs.pending, hs.parameters⟩)
    rw [hbuffer] at hextends houtcome
    refine ⟨output, hextends, Outcome.filled (hsuccess.outcome (houtcome.imp fun _ h' h => ?_))⟩
    exact himp select a output h h'

end Setting

end EntitySql
