import EntitySql.Proofs.WellFormed

/-!
# Anchors never fail

The condition of a subquery whose rows are compared with a value is made after the subquery, and an
anchor stands for it until then. Subqueries and values can hold such comparisons again. In standard
surroundings every anchor has its text once the statement is written, and no text leads back to its
own anchor: a statement that could be written can be finished, and lowering never fails for a reason
of its own.
-/

namespace EntitySql

/-- The setting in which nothing is promised about names. -/
def Setting.unnamed (env : Environment) (final : Sql.AnchorTable) : Setting :=
  ⟨env, final, False⟩

namespace Statement

variable {env : Environment} {statement : Statement} {s : State}

/-- What has been written can be rendered: all anchors are resolved. -/
theorem exists_finish_of_write (h : statement.write env .initial = (.ok (), s)) :
    ∃ sql, (finish env s).1 = .ok sql := by
  obtain ⟨sql, hsql, -⟩ := Setting.exists_finish (S := .unnamed env s.anchors)
    (p := ⟨.nesting, False⟩) False.elim id False.elim h rfl
  exact ⟨sql, hsql⟩

/-- A statement that cannot be written fails as every step of lowering does. -/
theorem failure_of_write {error : LoweringError} {s' : State} (hs : s.pending = none)
    (h : statement.write env s = (.error error, s')) :
    ∃ s₁, (Setting.unnamed env s'.anchors).Failure s error s₁ := by
  obtain ⟨_, -, houtcome⟩ := (Setting.produces_statement (S := .unnamed env s'.anchors)
    Setting.closed_unknown statement).writes s ⟨hs, False.elim⟩
  rw [show (Setting.unnamed env s'.anchors).env = env from rfl, h] at houtcome
  exact ⟨_, houtcome⟩

/-- Writing a statement fails with no defect. -/
theorem isDefect_of_write (henv : env.Standard) {error : LoweringError}
    (h : statement.write env .initial = (.error error, s)) : error.isDefect = false := by
  obtain ⟨_, hfailure⟩ := failure_of_write rfl h
  exact hfailure.isDefect henv

/-- A statement that could be written can be finished, and it is never the fault of lowering if a
statement cannot be prepared. -/
theorem prepare_without_defect (henv : env.Standard) (statement : Statement) :
    (∀ s, statement.write env .initial = (.ok (), s) → ∃ sql, (finish env s).1 = .ok sql)
      ∧ ∀ violation : Violation, violation.isDefect = true →
        (statement.prepare env .initial).1 ≠ .error (.internal violation) := by
  refine ⟨fun s => exists_finish_of_write, fun violation hdefect herror => ?_⟩
  rw [prepare] at herror
  split at herror
  · cases herror
  · rw [Lowering.bind_apply] at herror
    rcases hwrite : statement.write env .initial with ⟨error | a, s⟩ <;> rw [hwrite] at herror
    · obtain rfl := Except.error.inj herror
      exact Bool.false_ne_true ((isDefect_of_write henv hwrite).symm.trans hdefect)
    · obtain ⟨sql, hsql⟩ := exists_finish_of_write hwrite
      cases hsql.symm.trans herror

end Statement

namespace Sample

/-- The names of widgets that stand in a relation to all or some of the rows of a subquery. -/
def comparedNames (op : ComparisonOperator) (quantifier : Quantifier)
    (subquery : SelectCore Exp Source) : SelectCore Exp Source :=
  { otherNames with
    condition := some (.quantified (.property ⟨"w", ["Name"], .ofClass 20, .primitive .string⟩) op
      quantifier ⟨subquery, []⟩) }

/-- A query with a comparison in the condition of the subquery of another one. -/
def nestedComparison : Statement :=
  .select ⟨comparedNames .ge .all (comparedNames .ne .any otherNames), []⟩

theorem exists_prepare_nestedComparison :
    (Environment.of catalog .default .builtin).Standard
      ∧ ∃ s sql,
        nestedComparison.write (Environment.of catalog .default .builtin) .initial = (.ok (), s)
        ∧ (Statement.finish (Environment.of catalog .default .builtin) s).1 = .ok sql := by
  have henv := Environment.standard_of catalog .default .builtin
  obtain ⟨_, hok⟩ := Except.exists_eq_ok
    (x := (nestedComparison.write (Environment.of catalog .default .builtin) .initial).1)
    (by decide +kernel)
  refine ⟨henv, ?_⟩
  rcases hwrite : nestedComparison.write (Environment.of catalog .default .builtin) .initial with
    ⟨result, s⟩
  rw [hwrite] at hok
  obtain rfl : result = .ok () := hok
  obtain ⟨sql, hsql⟩ := (Statement.prepare_without_defect henv nestedComparison).1 s hwrite
  exact ⟨s, sql, rfl, hsql⟩

end Sample

end EntitySql
