import EntitySql.Proofs.Lowering.Composed
import EntitySql.Proofs.Lowering.Writes

/-!
# The specification of a step

`Setting.Spec` is all that is said about a step with a result: it is `Composed` of basic steps, with
the events on its way, and it `Meets` what is said about its result and the state. There is one rule
for each way in which steps are put together, and whatever is known about lowering follows from the
specifications of its functions: effects from how they are composed, and what holds of the SQL from
what their results look like.
-/

namespace EntitySql.Setting

open Sql (Fragment)

/-- The step is composed of basic steps with these events, and has results for which `R` holds. -/
structure Spec {α : Type} (S : Setting) (events : List Event) (step : Lowering α)
    (R : α → Prop) : Prop where
  composed : Composed S.env events step
  meets : S.Meets step R

/-- The step is composed of basic steps with these events, and writes output for which `R` holds. -/
structure Produces (S : Setting) (events : List Event) (step : Lowering Unit)
    (R : Fragment → Prop) : Prop where
  composed : Composed S.env events step
  writes : S.Writes step R

namespace Spec

variable {S : Setting} {α β γ : Type} {events events' : List Event} {step step' : Lowering α}
  {next : α → Lowering β} {R R' : α → Prop} {Q : β → Prop}

/-! ## Steps after steps -/

theorem pure {a : α} (ha : R a) : S.Spec [] (Pure.pure a) R :=
  ⟨.pure a, .pure ha⟩

/-- What is known of a result may be weakened. -/
theorem imp (h : S.Spec events step R) (himp : ∀ a, R a → R' a) : S.Spec events step R' :=
  ⟨h.composed, h.meets.imp himp⟩

/-- Events may be rewritten. -/
theorem congr (h : S.Spec events step R) (heq : events = events') : S.Spec events' step R :=
  heq ▸ h

/-- The rule for a step after another. What holds of the first result may be used for the second,
but only where both have gone well. -/
theorem bind (h : S.Spec events step R)
    (hnext : ∀ a, S.Spec events' (next a) fun b => R a → Q b) :
    S.Spec (events ++ events') (step >>= next) Q :=
  ⟨h.composed.bind fun a => (hnext a).composed, h.meets.bind fun a => (hnext a).meets⟩

/-- The rule for a step after one on which nothing happens. -/
theorem after (h : S.Spec [] step R) (hnext : ∀ a, S.Spec events (next a) fun b => R a → Q b) :
    S.Spec events (step >>= next) Q :=
  h.bind hnext

/-- The rule for a step after one whose result does not matter. -/
theorem seq (h : S.Spec [] step R) (hnext : ∀ a, S.Spec events (next a) Q) :
    S.Spec events (step >>= next) Q :=
  h.after fun a => (hnext a).imp fun _ hb _ => hb

/-- The rule for a step before one on which nothing happens. -/
theorem before (h : S.Spec events step R) (hnext : ∀ a, S.Spec [] (next a) fun b => R a → Q b) :
    S.Spec events (step >>= next) Q :=
  (h.bind hnext).congr (List.append_nil events)

/-- The rule for a result that is made of that of the last step. -/
theorem make {f : α → β} (h : S.Spec events step R) (hf : ∀ a, R a → Q (f a)) :
    S.Spec events (do return f (← step)) Q :=
  h.before fun a => .pure (hf a)

/-- What is known of a result passes to what is made of it. -/
theorem map {f : α → β} (h : S.Spec events step R) (hf : ∀ a, R a → Q (f a)) :
    S.Spec events (f <$> step) Q := by
  rw [map_eq_pure_bind]
  exact h.make hf

/-- The rule for a step that is one of two. -/
theorem ite {c : Prop} [Decidable c] (h : c → S.Spec events step R)
    (h' : ¬c → S.Spec events step' R) : S.Spec events (if c then step else step') R := by
  split
  next hc => exact h hc
  next hc => exact h' hc

/-- The rule for a step after one of two others. -/
theorem ite_bind {c : Prop} [Decidable c] (h : S.Spec events (if c then step else step') R)
    (hnext : ∀ a, S.Spec events' (next a) fun b => R a → Q b) :
    S.Spec (events ++ events') (if c then step >>= next else step' >>= next) Q := by
  rw [← apply_ite (· >>= next)]
  exact h.bind hnext

/-- The rule for a list: its events in their order, and its results one by one. -/
theorem mapM {l : List γ} {step : γ → Lowering α} {events : γ → List Event} {R : γ → α → Prop}
    (h : ∀ c ∈ l, S.Spec (events c) (step c) (R c)) :
    S.Spec (l.flatMap events) (l.mapM step) (List.Forall₂ R l) :=
  ⟨.mapM fun c hc => (h c hc).composed, .mapM fun c hc => (h c hc).meets⟩

/-! ## Failing -/

/-- A broken rule ends all that is specified. -/
theorem violate {violation : Violation} (h : violation.isDefect = false) :
    S.Spec events (Lowering.violate violation) R :=
  ⟨.violate violation, .violate h⟩

/-- A rejection ends all that is specified. -/
theorem reject {fault : Fault} : S.Spec events (Lowering.reject fault) R :=
  ⟨.reject fault, .reject⟩

/-- The rule for steps that are only taken if the statement is not at fault. -/
theorem guard {c : Prop} [Decidable c] {fault : Fault} {next : Unit → Lowering α}
    (h : ¬c → S.Spec events (next ()) R) :
    S.Spec events (if c then Lowering.reject fault >>= next else next ()) R :=
  ite (fun _ => reject) h

/-- The failure of a catalog as that of a step. -/
theorem failCatalog {error : CatalogError} (h : S.env.HasTables → error.isMissingTable = false) :
    S.Spec events (Lowering.fail (.catalog error)) R :=
  ⟨.fail fun _ => rfl, .failCatalog h⟩

/-- The rule for an answer of the catalog that may be an error. -/
theorem ofCatalog_bind {answer : Except CatalogError α}
    (herror : S.env.HasTables → FindsTables answer)
    (hok : ∀ a, answer = .ok a → S.Spec events (next a) Q) :
    S.Spec events (Lowering.ofCatalog answer >>= next) Q := by
  cases answer with
  | error error => exact failCatalog fun htables => herror htables error rfl
  | ok a => exact hok a rfl

/-- The rule for an answer that may break a rule. -/
theorem ofRule {answer : Except Violation α}
    (herror : ∀ violation, answer = .error violation → violation.isDefect = false)
    (hok : ∀ a, answer = .ok a → R a) : S.Spec [] (Lowering.ofRule answer) R := by
  cases answer with
  | error violation => exact violate (herror violation rfl)
  | ok a => exact pure (hok a rfl)

/-! ## Reading -/

/-- The rule for a step that reads of its surroundings what is the same in all that agree with
them. -/
theorem environment_bind {next : Environment → Lowering α} (h : S.Spec events (next S.env) R)
    (hsame : ∀ env, S.env.Agree env → next env = next S.env) :
    S.Spec events (Lowering.environment >>= next) R :=
  ⟨.reading h.composed hsame, h.meets⟩

/-- The rule for a step that reads the catalog. -/
theorem catalog_bind {next : Catalog → Lowering α} (h : S.Spec events (next S.env.catalog) R) :
    S.Spec events (Lowering.catalog >>= next) R :=
  ⟨.catalog_bind h.composed, h.meets⟩

/-- The rule for a step that depends on the scope, whatever that is. -/
theorem scope_bind {next : Scope → Lowering α} (h : ∀ scope, S.Spec events (next scope) R) :
    S.Spec events (Lowering.scope >>= next) R :=
  ⟨.after .scope fun scope => (h scope).composed, .scope_bind fun scope => (h scope).meets⟩

/-! ## Opening and closing -/

/-- The rule for a step one level deeper. -/
theorem nested (h : S.Spec events step R) : S.Spec events (Lowering.nested step) R :=
  ⟨.nested h.composed, .nested h.meets⟩

/-- The output of a step, as long as only its symbols matter. -/
theorem capture {step : Lowering Unit} {R : Fragment → Prop} (h : S.Produces events step R) :
    S.Spec events (Lowering.capture step) fun g => ∃ f, R f ∧ f.symbols = g.symbols :=
  ⟨.capture h.composed, .capture h.writes fun f _ hsymbols hf => ⟨f, hf, hsymbols⟩⟩

/-! ## Parameters and permissions -/

/-- A parameter gets its database names, which are those that it got when it first occurred. -/
theorem bindParameter (p : Parameter) :
    S.Spec [.binds p] (Lowering.bindParameter p) fun names =>
      S.orderly → names = p.nativeNames := by
  refine ⟨.bindParameter p, fun s hs => ?_⟩
  rw [Lowering.bindParameter]
  cases hbind : s.parameters.bind p with
  | error conflict => exact ⟨.refl s, fun _ => rfl, fun _ => rfl⟩
  | ok r =>
    exact ⟨⟨rfl, rfl, rfl, rfl, List.prefix_rfl, ParameterMap.prefix_of_bind hbind⟩, .refl _, rfl,
      fun h => (hs.parameters h).bind trivial hbind,
      fun _ h => ParameterMap.names_of_bind (hs.parameters h) hbind⟩

/-- A check of a call is an event, also if it rejects the call. -/
theorem checkFunction (name : String) :
    S.Spec [.calls name] (Lowering.checkFunction name) fun _ => True := by
  refine ⟨.checkFunction name, .environment_bind ?_⟩
  split
  · exact .reject
  · exact .pure trivial

/-- A check of experimental syntax is no event. -/
theorem checkExperimental (name : String) :
    S.Spec [] (Lowering.checkExperimental name) fun _ => True := by
  refine ⟨.checkExperimental name, .environment_bind ?_⟩
  split
  · exact .reject
  · exact .pure trivial

end Spec

/-! ## Output -/

namespace Produces

variable {S : Setting} {α : Type} {events events' : List Event} {step step' : Lowering Unit}
  {R R' : Fragment → Prop}

/-- Events may be rewritten. -/
theorem congr (h : S.Produces events step R) (heq : events = events') :
    S.Produces events' step R :=
  heq ▸ h

/-- What is known of the output may be weakened. -/
theorem imp (h : S.Produces events step R) (himp : ∀ output, R output → R' output) :
    S.Produces events step R' :=
  ⟨h.composed, h.writes.imp himp⟩

theorem pure (h : R .empty) : S.Produces [] (Pure.pure ()) R :=
  ⟨.pure (), .pure h⟩

/-- Appended output is what was appended. -/
theorem append {output : Fragment} (h : R output) : S.Produces [] (Lowering.append output) R :=
  ⟨.append output, .append h⟩

/-- The rule for a step that writes, after one that has a result. -/
theorem bind {first : Lowering α} {next : α → Lowering Unit} {Q : α → Prop}
    (h : S.Spec events first Q)
    (hnext : ∀ a, S.Produces events' (next a) fun output => Q a → R output) :
    S.Produces (events ++ events') (first >>= next) R :=
  ⟨h.composed.bind fun a => (hnext a).composed, .after h.meets fun a => (hnext a).writes⟩

/-- The rule for a step that writes, after one with a result on which nothing happens. -/
theorem after {first : Lowering α} {next : α → Lowering Unit} {Q : α → Prop}
    (h : S.Spec [] first Q)
    (hnext : ∀ a, S.Produces events (next a) fun output => Q a → R output) :
    S.Produces events (first >>= next) R :=
  bind h hnext

/-- The rule for a step that writes what it makes of a result. -/
theorem make {first : Lowering α} {f : α → Fragment} {Q : α → Prop} (h : S.Spec events first Q)
    (hf : ∀ a, Q a → R (f a)) : S.Produces events (first >>= fun a => Lowering.append (f a)) R :=
  (bind h fun a => append (hf a)).congr (List.append_nil events)

/-- The rule for a step that writes, after another one. -/
theorem seq {Q Q' : Fragment → Prop} (h : S.Produces events step Q)
    (hnext : S.Produces events' step' Q') (happend : ∀ f g, Q f → Q' g → R (f ++ g)) :
    S.Produces (events ++ events') (step >>= fun _ => step') R :=
  ⟨h.composed.bind fun _ => hnext.composed, h.writes.seq hnext.writes happend⟩

/-- The rule for a step that writes, behind a text. -/
theorem behind {output : Fragment} {Q : Fragment → Prop} (h : S.Produces events step Q)
    (happend : ∀ f, Q f → R (output ++ f)) :
    S.Produces events (Lowering.append output >>= fun _ => step) R :=
  seq (append rfl) h fun f g (hf : output = f) hg => hf ▸ happend g hg

/-- The rule for a step that writes, before a text. -/
theorem before {output : Fragment} {Q : Fragment → Prop} (h : S.Produces events step Q)
    (happend : ∀ f, Q f → R (f ++ output)) :
    S.Produces events (step >>= fun _ => Lowering.append output) R :=
  (seq h (append rfl) fun f g hf (hg : output = g) => hg ▸ happend f hf).congr
    (List.append_nil events)

/-- The rule for a step that writes in a scope of its own. -/
theorem withScope {scope : Scope} (h : S.Produces events step R) :
    S.Produces events (Lowering.withScope scope step) R :=
  ⟨.withScope h.composed, h.writes.withScope⟩

end Produces

end EntitySql.Setting
