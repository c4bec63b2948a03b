import EntitySql.Proofs.Anchors

/-!
# Lowering leaves the state balanced

Whatever an expression or a source opens while it is lowered, it closes again, whether it goes well
or fails: frames of the buffer, scopes, levels of depth, and the place where an anchor waits for a
select. Anchors and parameters are only added.
-/

namespace EntitySql

/-- A step that started in the state `s` left it balanced, and all its anchors resolved if it went
well. -/
structure State.Balanced {α : Type} (s : State) (result : Except LoweringError α × State) :
    Prop where
  keeps : s.Keeps result.2
  resolved : ∀ a, result.1 = .ok a → s.anchors.GrowsTo result.2.anchors

/-- What every step of lowering keeps includes the balance. -/
theorem Setting.Outcome.balanced {S : Setting} {α : Type} {R : α → Prop} {s : State}
    {result : Except LoweringError α × State} (h : S.Outcome R s result) : s.Balanced result := by
  obtain ⟨_ | a, s'⟩ := result
  · exact ⟨h.keeps, fun a ha => nomatch ha⟩
  · exact ⟨h.keeps, fun _ _ => h.anchors⟩

/-- Expressions and sources leave a state balanced in which no anchor waits for a select. -/
theorem balanced_lower {env : Environment} {s : State} (hs : s.pending = none) :
    (∀ e : Exp, s.Balanced (e.lower env s))
      ∧ ∀ (source : Source) (usageOf : String → PropertyUsage),
        s.Balanced (source.lower usageOf env s) := by
  have hready : (Setting.unnamed env s.anchors).Ready s := ⟨hs, False.elim⟩
  have hnodes := Setting.holds (S := .unnamed env s.anchors) Setting.closed_unknown
  constructor
  · intro e
    exact ((Setting.Lowers.lower (hnodes (.exp e))).meets s hready).balanced
  · intro source usageOf
    exact ((hnodes (.source source) usageOf).meets s hready).balanced

namespace Sample

/-- A state in the middle of a statement: output, an open frame, a scope and an anchor are there. -/
def midway : State :=
  { State.initial with
    buffer := (Sql.Buffer.empty.append "SELECT ").pushFrame
    anchors := ⟨[.reserved]⟩
    scopes := [⟨.select, true, true, true⟩]
    depth := 3 }

/-- A comparison with all rows of a subquery. -/
def comparison : Exp :=
  .quantified (.property ⟨"w", ["Name"], .ofClass 20, .primitive .string⟩) .ge .all
    ⟨comparedNames .ne .any otherNames, []⟩

theorem balanced_comparison :
    midway.pending = none
      ∧ midway.Balanced (comparison.lower (Environment.of catalog .default .builtin) midway) :=
  ⟨rfl, (balanced_lower rfl).1 comparison⟩

end Sample

end EntitySql
