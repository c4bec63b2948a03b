import EntitySql.Proofs.Names
import EntitySql.Proofs.Parameters.Map
import EntitySql.Proofs.Sql.Buffer
import EntitySql.Proofs.Storage.Tables

/-!
# What a step of lowering does

`Setting.Meets` is the specification of a step that has a result. It says what becomes of the state:
whatever the step opens it closes again, it only adds to anchors and parameters, and it reports
nothing if it goes well. And it says what the result is like, seen from the table of anchors at the
end: a result can hold anchors, and what is known about it depends on what they stand for there.
`Setting.Writes` is the same for a step that writes output, and `Setting.Fills` for a step that puts
the parts of a subquery into an anchor.

Each specification comes with one rule for each way in which steps are put together, so that a step
is specified by its parts. States are looked at for these rules and for the few basic steps that
change them, and nowhere else.
-/

namespace EntitySql

open Sql (AnchorTable Fragment)

/-! ## What becomes of the state -/

namespace Sql.AnchorTable

variable {t u v : AnchorTable}

/-- The second table is the first one with more anchors behind it, all resolved. -/
def GrowsTo (t u : AnchorTable) : Prop :=
  ∃ added : List Fragment, u.entries = t.entries ++ added.map .resolved

/-- A table that goes on another knows what that one knows. -/
theorem le_of_prefix (h : t.entries <+: u.entries) : t ≤ u := by
  intro id replacement hr
  obtain ⟨added, hadded⟩ := h
  have hlt := index_lt_of_resolved hr
  rw [resolved?, get?] at hr ⊢
  rwa [← hadded, List.getElem?_append_left hlt]

namespace GrowsTo

theorem refl (t : AnchorTable) : t.GrowsTo t :=
  ⟨[], (List.append_nil _).symm⟩

/-- Tables can grow in several steps. -/
theorem trans (h : t.GrowsTo u) (h' : u.GrowsTo v) : t.GrowsTo v := by
  obtain ⟨added, hu⟩ := h
  obtain ⟨added', hv⟩ := h'
  refine ⟨added ++ added', ?_⟩
  rw [hv, hu, List.map_append, List.append_assoc]

/-- A table that grows only gets to know more. -/
theorem le (h : t.GrowsTo u) : t ≤ u := by
  obtain ⟨added, hu⟩ := h
  exact le_of_prefix (hu ▸ List.prefix_append ..)

end GrowsTo

end Sql.AnchorTable

/-- The second state is as the first one, except for what was added to anchors and parameters, and
for issues. -/
structure State.Keeps (s s' : State) : Prop where
  buffer : s'.buffer = s.buffer
  scopes : s'.scopes = s.scopes
  depth : s'.depth = s.depth
  pending : s'.pending = s.pending
  anchors : s.anchors.entries <+: s'.anchors.entries
  parameters : s.parameters.bindings <+: s'.parameters.bindings

theorem State.Keeps.refl (s : State) : s.Keeps s :=
  ⟨rfl, rfl, rfl, rfl, List.prefix_rfl, List.prefix_rfl⟩

/-- What two steps keep, they keep together. -/
theorem State.Keeps.trans {s s' s'' : State} (h : s.Keeps s') (h' : s'.Keeps s'') :
    s.Keeps s'' :=
  ⟨h'.buffer.trans h.buffer, h'.scopes.trans h.scopes, h'.depth.trans h.depth,
    h'.pending.trans h.pending, h.anchors.trans h'.anchors, h.parameters.trans h'.parameters⟩

/-- A scope that is opened and closed again leaves no trace. -/
theorem State.Keeps.popScope {s s' : State} {scope : Scope}
    (h : State.Keeps { s with scopes := scope :: s.scopes } s') :
    s.Keeps { s' with scopes := s'.scopes.tail } :=
  ⟨h.buffer, congrArg List.tail h.scopes, h.depth, h.pending, h.anchors, h.parameters⟩

/-- What was written into a frame of its own is gone once the buffer is as it was. -/
theorem State.Keeps.withBuffer {s s' : State} {b b' b'' : Sql.Buffer}
    (h : State.Keeps { s with buffer := b } { s' with buffer := b' }) (hbuffer : b'' = s.buffer) :
    s.Keeps { s' with buffer := b'' } :=
  ⟨hbuffer, h.scopes, h.depth, h.pending, h.anchors, h.parameters⟩

/-- A step that keeps the buffer adds nothing to the output. -/
theorem State.Keeps.extends_empty {s s' : State} (h : s.Keeps s') :
    s.buffer.Extends s'.buffer .empty := by
  rw [h.buffer]
  exact .refl s.buffer

/-- The buffer can be put back where it was. -/
theorem State.Keeps.restore_buffer {s s' : State} (h : s.Keeps s') :
    { s' with buffer := s.buffer } = s' := by
  rw [← h.buffer]

/-- The parts of a state that outlive the steps that change them. -/
def State.ledger (s : State) : AnchorTable × ParameterMap × List Issue :=
  (s.anchors, s.parameters, s.issues)

/-- The violation is not one of a statement but of lowering itself: anchors or output are not
handled as they have to be, or a class in use is not stored. -/
def Violation.isDefect : Violation → Bool
  | .anchor _ | .anchorNotTaken | .openFrames _ | .noStorage _ => true
  | .misplacedTypeList | .typeListOperator _ | .emptyTypeList | .emptyOperand _
  | .operandWidths .. | .parameter _ | .unnamedParameter _ | .emptyQuantifiedList
  | .quantifiedWidths .. | .noColumns _ => false

/-- The failure is due to lowering itself. -/
def LoweringError.isDefect : LoweringError → Bool
  | .internal violation => violation.isDefect
  | .invalid _ | .catalog _ => false

/-- The failure is that a table is not in the catalog. -/
def LoweringError.isMissingTable : LoweringError → Bool
  | .catalog error => error.isMissingTable
  | .invalid _ | .internal _ => false

/-- Lowering is standard, and the catalog has the tables of all class maps. -/
structure Environment.HasTables (env : Environment) : Prop extends env.Standard where
  catalog : env.catalog.HasTables

/-! ## Specifications -/

/-- What the specifications depend on: the surroundings, the table of anchors at the end, and
whether parameters have the names that they get when they first occur. -/
structure Setting where
  env : Environment
  final : AnchorTable
  orderly : Prop

namespace Setting

/-- No anchor waits for a select, and the parameters found so far are in order. -/
structure Ready (S : Setting) (s : State) : Prop where
  pending : s.pending = none
  parameters : S.orderly → s.parameters.BoundBy fun _ => True

/-- A step went well: it had the result `a`, for which `R` holds, and left the state `s'`. -/
structure Success {α : Type} (S : Setting) (R : α → Prop) (s : State) (a : α) (s' : State) :
    Prop where
  keeps : s.Keeps s'
  anchors : s.anchors.GrowsTo s'.anchors
  issues : s'.issues = s.issues
  parameters : S.orderly → s'.parameters.BoundBy fun _ => True
  -- later steps only add to the anchors, so this can be used once the table at the end is known
  result : s'.anchors ≤ S.final → R a

/-- A step failed and left the state `s'`. -/
structure Failure (S : Setting) (s : State) (error : LoweringError) (s' : State) : Prop where
  keeps : s.Keeps s'
  -- other generators of views can fail with any error, and a text that stands in for a subquery
  -- leaves its anchor waiting
  isDefect : S.env.Standard → error.isDefect = false
  isMissingTable : S.env.HasTables → error.isMissingTable = false

/-- How a step ends that starts in the state `s`. -/
def Outcome {α : Type} (S : Setting) (R : α → Prop) (s : State) :
    Except LoweringError α × State → Prop
  | (.ok a, s') => S.Success R s a s'
  | (.error error, s') => S.Failure s error s'

/-- The step has results for which `R` holds, and handles the state as it has to. -/
def Meets {α : Type} (S : Setting) (step : Lowering α) (R : α → Prop) : Prop :=
  ∀ s, S.Ready s → S.Outcome R s (step S.env s)

variable {S : Setting} {α β : Type} {R : α → Prop} {Q : β → Prop} {s s' s'' : State}
  {error : LoweringError}

/-! ## Steps after steps -/

/-- A run that goes well, read off the specification of the step. -/
theorem Meets.success {step : Lowering α} {a : α} (h : S.Meets step R) (hs : S.Ready s)
    (hrun : step S.env s = (.ok a, s')) : S.Success R s a s' := by
  have houtcome := h s hs
  rwa [hrun] at houtcome

/-- Nothing has to change for a step to go well. -/
theorem Success.refl {a : α} (hs : S.Ready s) (ha : R a) : S.Success R s a s :=
  ⟨.refl s, .refl s.anchors, rfl, hs.parameters, fun _ => ha⟩

/-- After a step that went well, the next one can start. -/
theorem Success.ready {a : α} (h : S.Success R s a s') (hs : S.Ready s) : S.Ready s' :=
  ⟨h.keeps.pending.trans hs.pending, h.parameters⟩

/-- Two steps that went well are one: what the second says may use the first. -/
theorem Success.trans {a : α} {b : β} (h : S.Success R s a s')
    (h' : S.Success (fun b => R a → Q b) s' b s'') : S.Success Q s b s'' :=
  ⟨h.keeps.trans h'.keeps, h.anchors.trans h'.anchors, h'.issues.trans h.issues, h'.parameters,
    fun hfinal => h'.result hfinal (h.result (AnchorTable.le_trans h'.anchors.le hfinal))⟩

/-- A failure after a step that went well is one of both together. -/
theorem Success.failure {a : α} (h : S.Success R s a s') (h' : S.Failure s' error s'') :
    S.Failure s error s'' :=
  ⟨h.keeps.trans h'.keeps, h'.isDefect, h'.isMissingTable⟩

/-- What is known of a result may be weakened. -/
theorem Success.imp {a : α} {b : β} (h : S.Success R s a s') (himp : R a → Q b) :
    S.Success Q s b s' :=
  ⟨h.keeps, h.anchors, h.issues, h.parameters, fun hfinal => himp (h.result hfinal)⟩

/-- What is known of a result passes to what is made of it. -/
theorem Outcome.map {f : α → β} {result : Except LoweringError α} (h : S.Outcome R s (result, s'))
    (hf : ∀ a, R a → Q (f a)) : S.Outcome Q s (result.map f, s') := by
  cases result with
  | error error => exact h
  | ok a => exact Success.imp h (hf a)

/-- What is known of a result may be weakened, whether the step went well or not. -/
theorem Outcome.imp {R' : α → Prop} {result : Except LoweringError α × State}
    (h : S.Outcome R s result) (himp : ∀ a, R a → R' a) : S.Outcome R' s result := by
  obtain ⟨_ | a, s'⟩ := result
  · exact h
  · exact Success.imp h (himp a)

/-- A step after one that went well ends as it would by itself. -/
theorem Success.outcome {a : α} {result : Except LoweringError β × State}
    (h : S.Success R s a s') (h' : S.Outcome (fun b => R a → Q b) s' result) :
    S.Outcome Q s result := by
  obtain ⟨_ | b, s''⟩ := result
  · exact h.failure h'
  · exact h.trans h'

/-- A failure within an enclosing step is a failure of that step. -/
theorem Failure.enclosed {s₁ : State} (h : S.Failure s₁ error s')
    (hkeeps : s₁.Keeps s' → s.Keeps s'') : S.Failure s error s'' :=
  ⟨hkeeps h.keeps, h.isDefect, h.isMissingTable⟩

/-- A success within an enclosing step that leaves anchors, parameters and issues alone is one of
that step. -/
theorem Success.enclosed {s₁ : State} {a : α} (h : S.Success R s₁ a s')
    (hopen : s₁.ledger = s.ledger) (hclose : s''.ledger = s'.ledger)
    (hkeeps : s₁.Keeps s' → s.Keeps s'') : S.Success R s a s'' := by
  simp only [State.ledger, Prod.mk.injEq] at hopen hclose
  obtain ⟨hanchors, -, hissues⟩ := hopen
  obtain ⟨hanchors', hparameters', hissues'⟩ := hclose
  refine ⟨hkeeps h.keeps, ?_, ?_, ?_, ?_⟩
  · rw [← hanchors, hanchors']
    exact h.anchors
  · rw [← hissues, hissues']
    exact h.issues
  · rw [hparameters']
    exact h.parameters
  · rw [hanchors']
    exact h.result

/-- A step that runs in a changed state, the change being undone at the end, ends as it would
there. -/
theorem Outcome.enclosed {s₁ : State} {result : Except LoweringError α}
    (h : S.Outcome R s₁ (result, s')) (hopen : s₁.ledger = s.ledger)
    (hclose : s''.ledger = s'.ledger) (hkeeps : s₁.Keeps s' → s.Keeps s'') :
    S.Outcome R s (result, s'') := by
  cases result with
  | error error => exact Failure.enclosed h hkeeps
  | ok a => exact Success.enclosed h hopen hclose hkeeps

namespace Meets

variable {step : Lowering α} {next : α → Lowering β}

theorem pure {a : α} (ha : R a) : S.Meets (Pure.pure a) R :=
  fun _ hs => .refl hs ha

theorem imp {R' : α → Prop} (h : S.Meets step R) (himp : ∀ a, R a → R' a) : S.Meets step R' :=
  fun s hs => (h s hs).imp himp

/-- The rule for a step after another. What holds of the first result may be used for the second,
but only where both have gone well. -/
theorem bind (h : S.Meets step R) (hnext : ∀ a, S.Meets (next a) fun b => R a → Q b) :
    S.Meets (step >>= next) Q := by
  intro s hs
  have hstep := h s hs
  rw [Lowering.bind_apply]
  rcases hend : step S.env s with ⟨_ | a, s'⟩ <;> rw [hend] at hstep
  · exact hstep
  · exact Success.outcome hstep (hnext a s' (Success.ready hstep hs))

/-! ## Failing -/

/-- A step that fails meets any specification, if the error is neither a defect nor a missing table.
-/
theorem fail {error : LoweringError} (hdefect : S.env.Standard → error.isDefect = false)
    (htable : S.env.HasTables → error.isMissingTable = false) : S.Meets (Lowering.fail error) R :=
  fun s _ => ⟨.refl s, hdefect, htable⟩

/-- A broken rule is no defect where it can be broken by a statement. -/
theorem violate {violation : Violation} (h : violation.isDefect = false) :
    S.Meets (Lowering.violate violation) R :=
  .fail (fun _ => h) fun _ => rfl

/-- A rejected statement is neither a defect nor a missing table. -/
theorem reject {fault : Fault} : S.Meets (Lowering.reject fault) R :=
  fun _ _ => ⟨⟨rfl, rfl, rfl, rfl, List.prefix_rfl, List.prefix_rfl⟩, fun _ => rfl, fun _ => rfl⟩

/-- Nothing comes after a rejection. -/
theorem reject_bind {fault : Fault} : S.Meets (Lowering.reject fault >>= next) Q :=
  fun s hs => reject s hs

/-- The rule for a step that is only taken if a condition does not hold, the statement being at
fault otherwise. -/
theorem guard {c : Prop} [Decidable c] {fault : Fault} {next : Unit → Lowering α}
    (h : ¬c → S.Meets (next ()) R) :
    S.Meets (if c then Lowering.reject fault >>= next else next ()) R := by
  split
  next => exact reject_bind
  next hc => exact h hc

/-- The rule for an answer that may be a failure. -/
theorem ofExcept_bind {answer : Except LoweringError α}
    (herror : ∀ error, answer = .error error → S.Meets (Lowering.fail error) Q)
    (hok : ∀ a, answer = .ok a → S.Meets (next a) Q) :
    S.Meets (Lowering.ofExcept answer >>= next) Q := by
  cases answer with
  | error error => exact herror error rfl
  | ok a => exact hok a rfl

/-- The failure of a catalog as that of a step. -/
theorem failCatalog {error : CatalogError} (h : S.env.HasTables → error.isMissingTable = false) :
    S.Meets (Lowering.fail (.catalog error)) R :=
  .fail (fun _ => rfl) h

/-! ## Reading -/

theorem environment_bind {next : Environment → Lowering α} (h : S.Meets (next S.env) R) :
    S.Meets (Lowering.environment >>= next) R :=
  h

theorem scope_bind {next : Scope → Lowering α} (h : ∀ scope, S.Meets (next scope) R) :
    S.Meets (Lowering.scope >>= next) R :=
  fun s hs => h s.scope s hs

/-! ## Opening and closing -/

/-- The rule for a step one level deeper: it can only fail before. -/
theorem nested (h : S.Meets step R) : S.Meets (Lowering.nested step) R := by
  intro s hs
  rw [Lowering.nested]
  split
  · exact reject s hs
  · refine Outcome.enclosed (h { s with depth := s.depth + 1 } ⟨hs.pending, hs.parameters⟩)
      rfl rfl ?_
    intro h
    exact ⟨h.buffer, h.scopes, congrArg (· - 1) h.depth, h.pending, h.anchors, h.parameters⟩

/-- The rule for a step in a scope of its own. -/
theorem withScope {scope : Scope} (h : S.Meets step R) :
    S.Meets (Lowering.withScope scope step) R := by
  intro s hs
  exact Outcome.enclosed (h { s with scopes := scope :: s.scopes } ⟨hs.pending, hs.parameters⟩)
    rfl rfl State.Keeps.popScope

/-! ## Lists -/

/-- The results of steps for a list are related to its members, one by one. -/
theorem mapM {γ : Type} {l : List γ} {step : γ → Lowering α} {R : γ → α → Prop}
    (h : ∀ c ∈ l, S.Meets (step c) (R c)) : S.Meets (l.mapM step) (List.Forall₂ R l) := by
  induction l with
  | nil => exact .pure .nil
  | cons c l ih =>
    rw [List.mapM_cons]
    refine (h c (List.mem_cons_self ..)).bind fun a => ?_
    refine (ih fun d hd => h d (List.mem_cons_of_mem _ hd)).bind fun results => ?_
    exact .pure fun hresults ha => .cons ha hresults

end Meets

end Setting

end EntitySql
