import EntitySql.Proofs.WellFormed

/-!
# Lowered statements hold no comments

A comment in the SQL would hide what is behind it. None begins outside of quotes and brackets if
names in brackets do not close the brackets, names without brackets are words, and no minus sign
stands right in front of another one. A sign is not written apart from its operand, so the last
condition is needed, and so is the first: a closing bracket in a name is not escaped.
-/

namespace EntitySql

variable {statement : Statement}

/-- The SQL of a statement holds no comment if no name begins one and minus signs stand apart. -/
theorem Statement.isCommentFree_of_lower {catalog : Catalog} {options : Options}
    {functions : Registry} {lowered : LoweredStatement} (hcatalog : catalog.Contained)
    (hfunctions : functions.Contained) (hstatement : statement.Contained)
    (hsigns : statement.SignsApart)
    (hcolumns : statement.kind ≠ .select → catalog.ContainedClassColumns)
    (h : (statement.lower (Environment.of catalog options functions)).1 = .ok lowered) :
    Sql.isCommentFree lowered.sql = true := by
  obtain ⟨s, hwrite, hfinish⟩ := exists_write_of_prepare (prepare_of_lower h)
  obtain ⟨text, htext, hadmits, -⟩ := Setting.exists_finish
    (S := ⟨Environment.of catalog options functions, s.anchors, True⟩) (p := ⟨.comments, True⟩)
    (fun _ => ⟨Environment.standard_of .., hcatalog, hfunctions⟩) id
    (fun _ => ⟨⟨hstatement, hsigns⟩, hcolumns⟩) hwrite rfl
  obtain rfl := Except.ok.inj (htext.symm.trans hfinish)
  exact Sql.isCommentFree_of_passes (hadmits trivial)

namespace Sample

/-- A minus sign before a difference whose first operand is in parentheses and has a sign itself. -/
def negatedDifference : Exp :=
  .sign .minus
    (.arithmetic (.literal ⟨.integer (-1), .primitive .integer, true⟩) .minus
      (.literal (.ofValue (.integer (-2)))) .unknown false) .unknown

/-- The names of the query begin no comment outside of brackets. -/
theorem contained_negatedDifference : (queryFor negatedDifference (some "a--b")).Contained := by
  have hleaf (l : Literal) : (Node.exp (.literal l)).Contained :=
    Node.contained_iff.2 ⟨⟨List.forall_mem_nil _, List.forall_mem_nil _⟩, List.forall_mem_nil _⟩
  have hsign : (Node.exp negatedDifference).Contained := by
    refine Node.contained_iff.2 ⟨by decide, List.forall_mem_singleton.2 ?_⟩
    refine Node.contained_iff.2 ⟨by decide, List.forall_mem_cons.2 ⟨hleaf _, ?_⟩⟩
    exact List.forall_mem_singleton.2 (hleaf _)
  refine ⟨List.forall_mem_nil _, List.forall_mem_singleton.2 ?_⟩
  refine Node.contained_iff.2 ⟨by decide, List.forall_mem_singleton.2 ?_⟩
  exact Node.contained_iff.2 ⟨by decide, List.forall_mem_singleton.2 hsign⟩

/-- The sign stands before a parenthesis, and the second one behind a blank. -/
theorem signsApart_negatedDifference : (queryFor negatedDifference (some "a--b")).SignsApart := by
  have hleaf (l : Literal) : (Node.exp (.literal l)).SignsApart :=
    Node.signsApart_iff.2 ⟨trivial, List.forall_mem_nil _⟩
  have hsign : (Node.exp negatedDifference).SignsApart := by
    have hown : (Node.exp negatedDifference).SignApart := by
      simp [Node.SignApart, negatedDifference, Exp.leadsWithMinus]
    refine Node.signsApart_iff.2 ⟨hown, List.forall_mem_singleton.2 ?_⟩
    refine Node.signsApart_iff.2 ⟨trivial, List.forall_mem_cons.2 ⟨hleaf _, ?_⟩⟩
    exact List.forall_mem_singleton.2 (hleaf _)
  refine List.forall_mem_singleton.2 (Node.signsApart_iff.2 ⟨trivial, ?_⟩)
  refine List.forall_mem_singleton.2 (Node.signsApart_iff.2 ⟨trivial, ?_⟩)
  exact List.forall_mem_singleton.2 hsign

/-- Signs that are apart, and a name with dashes in brackets. -/
theorem isCommentFree_negatedDifference : ∃ lowered,
    ((queryFor negatedDifference (some "a--b")).lower
        (Environment.of catalog .default .builtin)).1 = .ok lowered
      ∧ lowered.sql = "SELECT -(-1) - -2 [a--b]"
      ∧ Sql.isCommentFree lowered.sql = true := by
  have hlower : ((queryFor negatedDifference (some "a--b")).lower
      (Environment.of catalog .default .builtin)).1.toOption.map (·.sql)
        = some "SELECT -(-1) - -2 [a--b]" := by
    decide +kernel
  obtain ⟨lowered, hlowered, hsql⟩ := Except.exists_eq_ok_of_map hlower
  refine ⟨lowered, hlowered, hsql, Statement.isCommentFree_of_lower ?_ ?_
    contained_negatedDifference signsApart_negatedDifference ?_ hlowered⟩
  · decide +kernel
  · decide +kernel
  · exact fun h => absurd rfl h

/-- Signs in a row begin a comment, and so does what is behind a bracket in a name. -/
theorem lower_comments :
    ((queryFor (.sign .minus (.literal (.ofValue (.integer (-1)))) .unknown) none).lower
        (.of catalog .default .builtin)).1.toOption.map (fun p => (p.sql, Sql.isCommentFree p.sql))
      = some ("SELECT --1", false)
    ∧ ((queryFor (.literal (.ofValue (.integer 1))) (some "a]--b")).lower
        (.of catalog .default .builtin)).1.toOption.map (fun p => (p.sql, Sql.isCommentFree p.sql))
      = some ("SELECT 1 [a]--b]", false) := by
  decide +kernel

end Sample

end EntitySql
