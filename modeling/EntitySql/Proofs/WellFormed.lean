import EntitySql.Proofs.Fitting.Statement
import EntitySql.Sample

/-!
# Lowered statements are well-formed SQL

If names are plain, what a statement is lowered to is well-formed SQL: quotes, brackets and
parentheses close, no anchor shows, and the text is not blank. Quoted texts may hold anything but
the mark of an anchor.
-/

namespace EntitySql

variable {statement : Statement} {env : Environment}

/-- A statement is written, and then its output is rendered. -/
theorem Statement.exists_write_of_prepare {s : State} {sql : String}
    (h : (statement.prepare env s).1 = .ok sql) :
    ∃ s', statement.write env s = (.ok (), s') ∧ (finish env s').1 = .ok sql := by
  rw [prepare] at h
  split at h
  · cases h
  · rw [Lowering.bind_apply] at h
    rcases hwrite : statement.write env s with ⟨_ | a, s'⟩ <;> rw [hwrite] at h
    · cases h
    · exact ⟨s', rfl, h⟩

/-- The SQL is what was written, with all anchors replaced. -/
theorem Statement.render_root_of_finish {s : State} {sql : String}
    (h : (finish env s).1 = .ok sql) : s.anchors.render s.buffer.root = .ok sql := by
  rw [finish] at h
  split at h
  · cases h
  · change (s.anchors.render s.buffer.root).mapError _ = .ok sql at h
    cases hrender : s.anchors.render s.buffer.root with
    | error error =>
      rw [hrender] at h
      cases h
    | ok text =>
      rw [hrender] at h
      exact congrArg _ (Except.ok.inj h)

/-- Lowering starts from nothing. -/
theorem Statement.prepare_of_lower {lowered : LoweredStatement}
    (h : (statement.lower env).1 = .ok lowered) :
    (statement.prepare env .initial).1 = .ok lowered.sql := by
  rw [lower] at h
  rcases hprepare : statement.prepare env .initial with ⟨_ | sql, s⟩ <;> rw [hprepare] at h
  · cases h
  · rw [← Except.ok.inj h]

/-- A text that opens nothing it does not close, and of which something shows, is well formed. -/
theorem Sql.isWellFormed_of_shifts {sql : String} {c : Char} (h : Shifts 0 0 (textSymbols sql))
    (hc : c ∈ sql.toList) (hblank : Text.isBlank c = false) : isWellFormed sql = true := by
  have hshown : Text.isBlankText sql = false :=
    List.all_eq_false.2 ⟨c, hc, by rw [hblank]; decide⟩
  show (!Text.isBlankText sql && !occursIn anchorMark sql.toList
    && closesFrom .plain 0 sql.toList) = true
  rw [hshown, not_occursIn_of_shifts h, closesFrom_of_shifts h]
  rfl

/-- The SQL of a statement with plain names is well formed. -/
theorem Statement.isWellFormed_of_lower {catalog : Catalog} {options : Options}
    {functions : Registry} {lowered : LoweredStatement} (hcatalog : catalog.Plain)
    (hfunctions : functions.Plain) (hstatement : statement.Plain)
    (hcolumns : statement.kind ≠ .select → catalog.PlainClassColumns)
    (h : (statement.lower (Environment.of catalog options functions)).1 = .ok lowered) :
    Sql.isWellFormed lowered.sql = true := by
  obtain ⟨s, hwrite, hfinish⟩ := exists_write_of_prepare (prepare_of_lower h)
  obtain ⟨text, htext, hadmits, hshown⟩ := Setting.exists_finish
    (S := ⟨Environment.of catalog options functions, s.anchors, True⟩) (p := ⟨.nesting, True⟩)
    (fun _ => ⟨Environment.standard_of .., hcatalog, hfunctions⟩) id
    (fun _ => ⟨hstatement, hcolumns⟩) hwrite rfl
  obtain rfl := Except.ok.inj (htext.symm.trans hfinish)
  obtain ⟨c, hc, hblank⟩ := hshown trivial
  exact Sql.isWellFormed_of_shifts (hadmits trivial) hc hblank

namespace Sample

/-- The names of the widgets that are not called `it's (]`. -/
def otherNames : SelectCore Exp Source where
  quantifier := .all
  items := [⟨.property ⟨"w", ["Name"], .ofClass 20, .primitive .string⟩, none, none⟩]
  sources := [.ofClass ⟨20, "ts", "Widget", some "w", false⟩]
  condition := some (.boolean (.property ⟨"w", ["Name"], .ofClass 20, .primitive .string⟩)
    (.comparison .ne) (.literal (.ofValue (.string "it's (]"))) false)
  groupBy := []
  having := none
  windows := []
  orderBy := []
  limit := none

/-- A query for a single value. -/
def queryFor (e : Exp) (aliasName : Option String) : Statement :=
  .select ⟨{ otherNames with
    quantifier := .unspecified
    items := [⟨e, aliasName, none⟩]
    sources := []
    condition := none }, []⟩

/-- Deletes the spatial elements that have one of these names as their code. -/
def deletion : Statement :=
  .delete ⟨⟨12, "ts", "SpatialElement", none, true⟩,
    some (.quantified (.property ⟨"e", ["Code"], .ofClass 12, .primitive .string⟩) .eq .any
      ⟨otherNames, []⟩)⟩

theorem plain_otherNames : (Node.core otherNames).Plain := by
  have hname : (Node.exp (.property ⟨"w", ["Name"], .ofClass 20, .primitive .string⟩)).Plain :=
    Node.plain_iff.2 ⟨by decide, nofun⟩
  have hsource : (Node.source (.ofClass ⟨20, "ts", "Widget", some "w", false⟩)).Plain :=
    Node.plain_iff.2 ⟨by decide, nofun⟩
  have hliteral : (Node.exp (.literal (.ofValue (.string "it's (]")))).Plain :=
    Node.plain_iff.2 ⟨by decide, nofun⟩
  refine Node.plain_iff.2 ⟨by decide, List.forall_mem_cons.2 ⟨hname, ?_⟩⟩
  refine List.forall_mem_cons.2 ⟨Node.plain_iff.2 ⟨by decide, ?_⟩, ?_⟩
  · exact List.forall_mem_cons.2 ⟨hname, List.forall_mem_singleton.2 hliteral⟩
  · exact List.forall_mem_singleton.2 hsource

theorem plain_deletion : deletion.Plain := by
  have hselect : (Node.select ⟨otherNames, []⟩).Plain :=
    Node.plain_iff.2 ⟨by decide, List.forall_mem_singleton.2 plain_otherNames⟩
  have hcode : (Node.exp (.property ⟨"e", ["Code"], .ofClass 12, .primitive .string⟩)).Plain :=
    Node.plain_iff.2 ⟨by decide, nofun⟩
  refine ⟨nofun, List.forall_mem_singleton.2 (Node.plain_iff.2 ⟨by decide, ?_⟩)⟩
  exact List.forall_mem_cons.2 ⟨hcode, List.forall_mem_singleton.2 hselect⟩

/-- A deletion that compares with the rows of a subquery, and a text with a quote, a parenthesis and
a bracket that do not close. -/
theorem isWellFormed_deletion : ∃ lowered,
    (deletion.lower (Environment.of catalog .default .builtin)).1 = .ok lowered
      ∧ Sql.isWellFormed lowered.sql = true := by
  obtain ⟨lowered, hlowered⟩ := Except.exists_eq_ok
    (x := (deletion.lower (Environment.of catalog .default .builtin)).1) (by decide +kernel)
  refine ⟨lowered, hlowered, Statement.isWellFormed_of_lower ?_ ?_ plain_deletion ?_ hlowered⟩
  · decide +kernel
  · decide +kernel
  · exact fun _ => by decide +kernel

end Sample

end EntitySql
