import EntitySql.Proofs.TwoRuns.Statement

/-!
# Texts cannot change the structure of the SQL

What stands in a string, date or time constant appears in the SQL in one way only, in quotes. If the
texts of a statement are replaced by others, it is lowered as before: with the same error, or with
the same parameters and SQL from the same template, in which each hole is filled with one of the
texts in quotes.
-/

namespace EntitySql

open Sql (Distinctive Template quoted)

/-- The text stands in a constant somewhere in the statement. -/
def Statement.HasText (statement : Statement) (x : String) : Prop :=
  ∃ n ∈ statement.nodes, ∃ e, (Node.exp e).Within n ∧ x ∈ e.texts

/-- A text in quotes is distinctive because of the quotes. -/
theorem Sql.distinctive_quoted (x : String) : Distinctive (quoted x) := by
  refine ⟨'\'', ?_, by decide, by decide⟩
  rw [quoted, String.toList_append, String.toList_append]
  simp

/-- A statement in standard surroundings, with its own texts and with others. -/
def TwoRuns.ofTexts (catalog : Catalog) (options : Options) (functions : Registry)
    (statement : Statement) (f : String → String) : TwoRuns where
  Hole := { x // statement.HasText x }
  first x := quoted x
  second x := quoted (f x)
  distinctive_first x := Sql.distinctive_quoted x
  distinctive_second x := Sql.distinctive_quoted (f x)
  env := .of catalog options functions
  prune := options.pruneNestedViews
  rename := f
  texts := rfl

/-- The runs with and without replaced texts agree on every node of the statement. -/
theorem TwoRuns.admits_ofTexts {catalog : Catalog} {options : Options} {functions : Registry}
    {statement : Statement} {f : String → String} {n : Node} (hn : n ∈ statement.nodes) :
    (ofTexts catalog options functions statement f).Admits n where
  texts e he x hx := (ofTexts catalog options functions statement f).alike_hole
    ⟨x, n, hn, e, he, hx⟩
  -- both runs prune, or neither does
  views _ _ _ _ _ _ _ _ := .refl .refl _

/-- However the texts of a statement are replaced, lowering has the same outcome, the same
parameters, and SQL from one template whose holes hold the texts in quotes. -/
theorem Statement.exists_template_of_mapTexts (catalog : Catalog) (options : Options)
    (functions : Registry) (statement : Statement) (f : String → String) :
    SameOutcome
      (fun p q => q.parameters = p.parameters ∧ ∃ template : Template { x // statement.HasText x },
        p.sql = template.fill (fun x => quoted x) ∧ q.sql = template.fill fun x => quoted (f x))
      (statement.lower (.of catalog options functions)).1
      ((statement.mapTexts f).lower (.of catalog options functions)).1 := by
  have hsame := TwoRuns.same_lower (W := .ofTexts catalog options functions statement f)
    fun n hn => TwoRuns.admits_ofTexts hn
  have hother : (TwoRuns.ofTexts catalog options functions statement f).other
      = .of catalog options functions := rfl
  rw [hother] at hsame
  exact hsame.mono fun p q hpq => ⟨hpq.parameters, hpq.sql⟩

end EntitySql
