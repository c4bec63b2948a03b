import EntitySql.Proofs.Lowering.Select
import EntitySql.Proofs.TwoRuns.Source

/-!
# Selects in two runs

A single select is lowered clause by clause, and the runs agree on it if they agree on its
expressions and its sources.
-/

namespace EntitySql

open Lowering
open Sql (AnchorId Columns Fillings Fragment)

namespace TwoRuns

variable {W : TwoRuns} {σ : List Scope}

/-! ## Clauses -/

/-- Clauses are there on both sides or on none. -/
theorem fragmentsAlike_clause {keyword : String} {o o' : Option Fragment}
    (h : Option.Rel W.FragmentsAlike o o') :
    W.FragmentsAlike (clause keyword o) (clause keyword o') := by
  cases h with
  | none => exact .empty
  | some hfg => exact .append (.refl _) hfg

/-- Clauses with alike columns are alike. -/
theorem fragmentsAlike_columnClause {keyword : String} {ls ls' : List Columns}
    (h : List.Forall₂ W.ColumnsAlike ls ls') :
    W.FragmentsAlike (columnClause keyword ls) (columnClause keyword ls') := by
  refine fragmentsAlike_clause ?_
  cases h with
  | nil => exact .none
  | cons hl hrest => exact .some (.join "," (Fillings.ColumnsAlike.flatten (.cons hl hrest)))

/-- Runs agree on limits. -/
theorem agree_limitClause {limit : Option (Limit Exp)}
    (h : ∀ e ∈ limit.toList.flatMap (·.exps), W.Lowers σ e) :
    W.Agree σ (limitClause (limit.map (.map Exp.operand))) (limitClause (limit.map (.map W.image)))
      W.FragmentsAlike := by
  cases limit with
  | none => exact .pure (.refl _)
  | some limit =>
    rw [Option.toList_some, List.flatMap_singleton] at h
    have hcount := h limit.count (List.mem_cons_self ..)
    have hoffset : ∀ e ∈ limit.offset.toList, W.Lowers σ e := fun e he =>
      h e (List.mem_cons_of_mem _ he)
    refine hcount.single.bind fun c c' hc => (agree_single? hoffset).bind fun o o' ho => .pure ?_
    exact .append (.append (.refl _) hc) (fragmentsAlike_clause ho)

/-- Runs agree on conditions, and on anchors in their place. -/
theorem agree_selectCondition {anchor anchor' : Option AnchorId} {fs gs : Columns}
    {o o' : Option Fragment} (hanchor : Option.Rel W.AnchorsAlike anchor anchor')
    (hcolumns : W.ColumnsAlike fs gs) (ho : Option.Rel W.FragmentsAlike o o') :
    W.Agree σ (selectCondition anchor fs o) (selectCondition anchor' gs o') W.FragmentsAlike := by
  cases hanchor with
  | none => exact .pure (fragmentsAlike_clause ho)
  | some hid =>
    exact (Agree.captureAt hid hcolumns ho).bind fun _ _ _ =>
      .pure (.append (.refl _) (.ofAnchor hid))

/-! ## Items -/

variable {item : SelectItem Exp}

/-- Columns get the name of the item: one as it is, several with numbers. -/
theorem columnsAlike_aliased {fs gs : Columns} (aliasName : Option String) :
    W.ColumnsAlike fs gs → W.ColumnsAlike
      (match aliasName, fs with
        | none, columns => columns
        | some aliasName, [column] => [column ++ (" " ++ Sql.bracketed aliasName)]
        | some aliasName, columns => numberedColumns aliasName columns)
      (match aliasName, gs with
        | none, columns => columns
        | some aliasName, [column] => [column ++ (" " ++ Sql.bracketed aliasName)]
        | some aliasName, columns => numberedColumns aliasName columns) := by
  intro h
  cases aliasName with
  | none => exact h
  | some aliasName =>
    have hnumbered : W.ColumnsAlike (numberedColumns aliasName fs) (numberedColumns aliasName gs) :=
      columnsAlike_numberedColumns h
    cases h with
    | nil => exact hnumbered
    | cons hfg hrest =>
      cases hrest with
      | nil => exact .singleton (hfg.append (.refl _))
      | cons => exact hnumbered

/-- Alike columns get the same names. -/
theorem columnsAlike_namedColumns {fs gs : Columns} (h : W.ColumnsAlike fs gs) :
    W.ColumnsAlike (namedColumns (item.map Exp.operand) fs)
      (namedColumns (item.map W.image) gs) := by
  have hexp : (item.map W.image).exp.exp = item.exp.mapTexts W.rename := rfl
  obtain ⟨exp, aliasName, nestedAlias⟩ := item
  unfold namedColumns
  rw [hexp]
  cases exp with
  | navigation value =>
    rw [Exp.mapTexts]
    exact columnsAlike_numberedColumns h
  | _ =>
    rw [Exp.mapTexts]
    exact columnsAlike_aliased aliasName h

/-- Runs agree on the columns of items. -/
theorem agree_itemColumns (h : W.Lowers σ item.exp) :
    W.Agree σ (itemColumns (item.map Exp.operand)) (itemColumns (item.map W.image))
      W.ColumnsAlike := by
  have hexp : (item.map W.image).exp.exp = item.exp.mapTexts W.rename := rfl
  have hlower := h.lower
  obtain ⟨exp, aliasName, nestedAlias⟩ := item
  unfold itemColumns
  rw [hexp]
  cases exp with
  | navigation value =>
    rw [Exp.mapTexts]
    exact h
  | _ =>
    rw [Exp.mapTexts]
    exact hlower

/-- Runs agree on items. -/
theorem agree_selectItem {derivedAliases : Bool} (h : W.Lowers σ item.exp) :
    W.Agree σ (selectItem derivedAliases (item.map Exp.operand))
      (selectItem derivedAliases (item.map W.image)) W.BothAlike := by
  refine (agree_itemColumns h).bind fun fs gs hfs => .pure ⟨?_, hfs⟩
  exact columnsAlike_ite (columnsAlike_namedColumns hfs) hfs

/-! ## Single selects -/

variable {c : SelectCore Exp Source} {step step' : Source → Lowering Fragment}

/-- The first clauses of a select are alike. -/
theorem fragmentsAlike_headText (quantifier : SetQuantifier) {sources sources' : List Fragment}
    {items items' : List (Columns × Columns)} (hsources : W.ColumnsAlike sources sources')
    (hitems : W.ColumnsAlike (items.flatMap (·.1)) (items'.flatMap (·.1))) :
    W.FragmentsAlike (headText quantifier sources items) (headText quantifier sources' items') := by
  have hfrom : W.FragmentsAlike (columnClause " FROM " (sources.map fun source => [source]))
      (columnClause " FROM " (sources'.map fun source => [source])) := by
    refine fragmentsAlike_columnClause ?_
    rw [List.forall₂_map_left_iff, List.forall₂_map_right_iff]
    exact hsources.imp fun _ _ hfg => .singleton hfg
  exact .append (.append (.refl _) (.join "," hitems)) hfrom

/-- Runs agree on the clauses behind a condition. -/
theorem agree_clausesBehind (hexps : ∀ e ∈ c.exps, W.Lowers σ e) :
    W.Agree σ (Setting.clausesBehind (c.map Exp.operand step))
      (Setting.clausesBehind (c.map W.image step')) W.ColumnsAlike := by
  simp only [SelectCore.exps, List.mem_append, or_imp, forall_and] at hexps
  obtain ⟨⟨⟨⟨⟨-, hgroupBy⟩, hhaving⟩, hwindows⟩, horderBy⟩, hlimit⟩ := hexps
  refine (Agree.mapM fun e he => (hgroupBy e he).lower).bind fun groupBy groupBy' hgroupBy => ?_
  refine (agree_single? hhaving).bind fun having having' hhaving => ?_
  have hempty : (c.map W.image step').windows.isEmpty
      = (c.map Exp.operand step).windows.isEmpty := by
    simp only [SelectCore.map, List.isEmpty_map]
  rw [hempty]
  refine Agree.ite_bind (R := Option.Rel W.FragmentsAlike) ?_ fun windows windows' hwindows => ?_
  · split
    · exact .pure .none
    · exact (agree_windowClause hwindows).map fun _ _ hfg => .some hfg
  refine (Agree.mapM fun key hkey => agree_sortKey (horderBy _ (List.mem_map_of_mem hkey))).bind
    fun orderBy orderBy' horderBy => ?_
  refine (agree_limitClause hlimit).bind fun limit limit' hlimit => .pure ?_
  exact .cons (fragmentsAlike_columnClause hgroupBy) (.cons (fragmentsAlike_clause hhaving)
    (.cons (fragmentsAlike_clause hwindows) (.cons (fragmentsAlike_columnClause horderBy)
      (.cons hlimit .nil))))

theorem fragmentsAlike_foldl {f g : Fragment} {fs gs : List Fragment} (h : W.FragmentsAlike f g)
    (hs : W.ColumnsAlike fs gs) :
    W.FragmentsAlike (fs.foldl (· ++ ·) f) (gs.foldl (· ++ ·) g) := by
  induction hs generalizing f g with
  | nil => exact h
  | cons hfg _ ih => exact ih (h.append hfg)

/-- Runs agree on the clauses of a select. -/
theorem agree_coreBody {anchor anchor' : Option AnchorId}
    (hanchor : Option.Rel W.AnchorsAlike anchor anchor') (hexps : ∀ e ∈ c.exps, W.Lowers σ e)
    (hsources : ∀ s ∈ c.sources, W.Agree σ (step s) (step' s) W.FragmentsAlike) :
    W.Agree σ (coreBody (c.map Exp.operand step) anchor) (coreBody (c.map W.image step') anchor')
      W.FragmentsAlike := by
  have hbehind : W.Agree σ (Setting.clausesBehind (c.map Exp.operand step))
      (Setting.clausesBehind (c.map W.image step')) W.ColumnsAlike :=
    agree_clausesBehind hexps
  simp only [SelectCore.exps, List.mem_append, or_imp, forall_and] at hexps
  obtain ⟨⟨⟨⟨⟨⟨hitems, hcondition⟩, -⟩, -⟩, -⟩, -⟩, -⟩ := hexps
  have hsteps : W.Agree σ ((c.sources.map step).mapM id) ((c.sources.map step').mapM id)
      W.ColumnsAlike :=
    .mapM hsources
  have hnone : anchor'.isNone = anchor.isNone := by cases hanchor <;> rfl
  rw [Setting.coreBody_eq, Setting.coreBody_eq, hnone]
  refine hsteps.bind fun sources sources' hsources => ?_
  refine (Agree.mapM fun item hitem => agree_selectItem (hitems _ (List.mem_map_of_mem hitem))).bind
    fun items items' hitems => ?_
  have hwritten : W.ColumnsAlike (items.flatMap (·.1)) (items'.flatMap (·.1)) :=
    List.rel_flatMap hitems fun _ _ h => h.1
  have hcompared : W.ColumnsAlike (items.flatMap (·.2)) (items'.flatMap (·.2)) :=
    List.rel_flatMap hitems fun _ _ h => h.2
  refine (agree_single? hcondition).bind fun o o' ho => ?_
  refine (agree_selectCondition hanchor hcompared ho).bind fun condition condition' hcondition => ?_
  rw [Setting.lastClauses_eq, Setting.lastClauses_eq]
  refine hbehind.bind fun fs gs hfs => .pure (fragmentsAlike_foldl ?_ hfs)
  exact (fragmentsAlike_headText _ hsources hwritten).append hcondition

/-- Runs agree on single selects, each in a scope of its own. -/
theorem agree_core {isRoot : Bool} {anchor anchor' : Option AnchorId}
    (hanchor : Option.Rel W.AnchorsAlike anchor anchor')
    (hexps : ∀ scope, ∀ e ∈ c.exps, W.Lowers (scope :: σ) e)
    (hsources : ∀ scope : Scope, scope.isRoot = isRoot → ∀ s ∈ c.sources,
      W.Agree (scope :: σ) (step s) (step' s) W.FragmentsAlike) :
    W.Agree σ (core (c.map Exp.operand step) isRoot anchor)
      (core (c.map W.image step') isRoot anchor') W.FragmentsAlike := by
  have hempty : (c.map W.image step').sources.isEmpty
      = (c.map Exp.operand step).sources.isEmpty := by
    simp only [SelectCore.map, List.isEmpty_map]
  rw [core, core, hempty]
  exact .withScope ⟨rfl, rfl, rfl⟩ (agree_coreBody hanchor (hexps _) (hsources _ rfl))

/-! ## Compound selects -/

/-- The rule for a select whose single selects are lowered from `g` in the first run and from `g'`
in the second. -/
theorem agree_writeSelect {w : Select Exp Source}
    (g g' : SelectCore Exp Source → SelectCore Operand (Lowering Fragment))
    (h : ∀ c ∈ w.cores, ∀ anchor anchor', Option.Rel W.AnchorsAlike anchor anchor' →
      W.Agree σ (core (g c) σ.isEmpty anchor) (core (g' c) σ.isEmpty anchor') W.FragmentsAlike) :
    W.Writes σ (writeSelect ⟨g w.first, w.rest.map fun arm => ⟨arm.op, g arm.core⟩⟩)
      (writeSelect ⟨g' w.first, w.rest.map fun arm => ⟨arm.op, g' arm.core⟩⟩) := by
  refine .isOutermost_bind (Agree.takePending.bind fun anchor anchor' hanchor => ?_)
  refine (h w.first (List.mem_cons_self ..) anchor anchor' hanchor).bind fun f f' hf => ?_
  refine (Agree.append hf).bind fun _ _ _ => .forM fun arm harm => ?_
  have harm := h arm.core (List.mem_cons_of_mem _ (List.mem_map_of_mem harm)) none none .none
  exact harm.bind fun f f' hf => .append (.append (.refl _) hf)

/-- No texts stand in for selects on either side. -/
theorem agree_writeOr {text text' : StatementTexts → String} {x y : Lowering Unit}
    (h : W.Writes σ x y) : W.Writes σ (writeOr text x) (writeOr text' y) := by
  have htexts : W.other.texts = none := W.texts
  refine .environment_bind ?_
  rw [W.texts, htexts]
  exact h

end TwoRuns

end EntitySql
