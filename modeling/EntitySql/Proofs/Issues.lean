import EntitySql.Proofs.WellFormed

/-!
# Every fault is reported once

A statement that is at fault is reported as one issue, with the number and the message of the fault
it fails with. Nothing else is reported: not by a statement that is lowered, and not by one that
fails for another reason. This does not depend on the state that a statement is prepared in, so that
the issues of a session are the faults of its statements, in their order.

Faults are found in many places. That none of them goes on after a report, or reports for another,
is an induction over the basic steps that lowering is composed of: a step that goes well reports
nothing, and the first one that fails reports for all.
-/

namespace EntitySql

/-- Views by the class maps of the catalog leave no fault to be reported. -/
theorem Environment.Standard.faultlessViews {env : Environment} (h : env.Standard) :
    env.FaultlessViews := by
  intro c usage error herror
  obtain ⟨cause, -, rfl⟩ := h.exists_of_view_eq_error herror
  rfl

namespace Composed

open Lowering

variable {α : Type} {events : List Event} {x : Lowering α} {env : Environment}

/-- A step that goes well has reported nothing, and what is reported afterwards stays. -/
theorem issues_bind {β : Type} {next : α → Lowering β} {s : State}
    (h : (x env s).2.issues = s.issues ++ issuesOf (x env s).1)
    (hnext : ∀ a s', (next a env s').2.issues = s'.issues ++ issuesOf (next a env s').1) :
    ((x >>= next) env s).2.issues = s.issues ++ issuesOf ((x >>= next) env s).1 := by
  rw [bind_apply]
  rcases hx : x env s with ⟨error | a, s'⟩ <;> rw [hx] at h
  · exact h
  · have hsame : s'.issues = s.issues := h.trans (List.append_nil _)
    show (next a env s').2.issues = s.issues ++ issuesOf (next a env s').1
    rw [hnext, hsame]

/-- A step that is composed of basic steps reports the fault it fails with, and nothing else. -/
theorem issues_eq (h : Composed env events x) (henv : env.FaultlessViews) (s : State) :
    (x env s).2.issues = s.issues ++ issuesOf (x env s).1 := by
  induction h generalizing s with
  | basic _ hbasic => exact hbasic henv env s
  | failing _ hfailing _ => exact hfailing henv env s
  | bind _ _ ih ihnext => exact issues_bind (ih s) ihnext
  | reading _ _ ih => exact ih s
  | checkFunction name =>
    rw [checkFunction_apply]
    split
    · rfl
    · exact (List.append_nil _).symm
  | checkExperimental name =>
    rw [checkExperimental_apply]
    split
    · exact (List.append_nil _).symm
    · rfl
  | bindParameter p =>
    rw [Lowering.bindParameter]
    cases s.parameters.bind p <;> exact (List.append_nil _).symm
  | nested _ ih =>
    rw [Lowering.nested]
    split
    · rfl
    · exact ih { s with depth := s.depth + 1 }
  | @withScope _ scope _ _ _ ih => exact ih { s with scopes := scope :: s.scopes }
  | @capture x _ _ ih =>
    show (x env { s with buffer := s.buffer.pushFrame }).2.issues
      = s.issues ++ issuesOf ((x env { s with buffer := s.buffer.pushFrame }).1.map _)
    rw [issuesOf_map]
    exact ih { s with buffer := s.buffer.pushFrame }

end Composed

namespace Statement

variable {env : Environment}

/-- Preparing a statement that can run here reports the fault it fails with. -/
theorem issues_write_finish (henv : env.FaultlessViews) (statement : Statement) (s : State) :
    ((do statement.write; finish : Lowering String) env s).2.issues
      = s.issues ++ issuesOf ((do statement.write; finish : Lowering String) env s).1 :=
  (statement.composed_write_finish env).issues_eq henv s

/-- A statement reports the fault it fails with, as an error with the number, the category and the
message of the fault, and nothing else, in whatever state it is prepared. -/
theorem issues_prepare (henv : env.FaultlessViews) (statement : Statement) (s : State) :
    (statement.prepare env s).2.issues = s.issues ++
      match (statement.prepare env s).1 with
      | .error (.invalid fault) =>
        [{ severity := .error
           category := fault.id.category
           id := fault.id
           message := fault.message }]
      | .error (.internal _) | .error (.catalog _) | .ok _ => [] := by
  rw [prepare]
  split
  · rfl
  · refine (issues_write_finish henv statement s).trans ?_
    rcases ((do statement.write; finish : Lowering String) env s).1 with (fault | _ | _) | sql
    · rfl
    · rfl
    · rfl
    · rfl

end Statement

namespace Sample

/-- A query that compares with the rows of several selects, which is not allowed. -/
def compoundComparison : Statement :=
  .select ⟨{ otherNames with
    condition := some (.quantified (.property ⟨"w", ["Name"], .ofClass 20, .primitive .string⟩) .eq
      .any ⟨otherNames, [⟨.unionAll, otherNames⟩]⟩) }, []⟩

/-- A state that was left in the middle of a statement: there is output, and an anchor that is not
in the table waits for a select. -/
def abandoned : State :=
  { State.initial with
    buffer := Sql.Buffer.empty.append "SELECT "
    pending := some ⟨7⟩
    depth := 3 }

theorem issues_compoundComparison :
    (Environment.of catalog .default .builtin).FaultlessViews
      ∧ ∃ fault,
        (compoundComparison.prepare (Environment.of catalog .default .builtin) abandoned).1
          = .error (.invalid fault)
        ∧ (compoundComparison.prepare (Environment.of catalog .default .builtin) abandoned).2.issues
          = [⟨.error, fault.id.category, fault.id, fault.message⟩] := by
  have hviews := (Environment.standard_of catalog .default .builtin).faultlessViews
  have hissues := Statement.issues_prepare hviews compoundComparison abandoned
  have hreported : (compoundComparison.prepare (Environment.of catalog .default .builtin)
      abandoned).2.issues.length = 1 := by
    decide +kernel
  rcases hresult : (compoundComparison.prepare (Environment.of catalog .default .builtin)
      abandoned).1 with (fault | _ | _) | _ <;> rw [hresult] at hissues
  · exact ⟨hviews, fault, rfl, hissues⟩
  -- in the other cases nothing would have been reported
  all_goals
    rw [hissues] at hreported
    cases hreported

end Sample

end EntitySql
