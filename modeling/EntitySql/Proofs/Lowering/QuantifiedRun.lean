import EntitySql.Proofs.Lowering.ChangeText

/-!
# A comparison with the rows of a subquery, taken apart

A comparison that goes well has lowered its operand, and then the clauses of the subquery one by
one, in a frame of their own and with a new anchor in the place of the condition. Behind the
sources, the items and the condition, the anchor took the columns of the items and the condition. At
the end it was resolved with what they were made into. `QuantifiedRun` holds all of these parts, and
`exists_quantifiedRun` finds them in every run.
-/

namespace EntitySql

open Lowering
open Sql (AnchorId AnchorState AnchorTable CapturedSelect Columns Fragment)

/-! ## Taking runs apart -/

namespace Lowering

variable {env : Environment} {s s' : State} {f : Fragment}

/-- Captured output is the innermost frame of the buffer, which is left again. -/
theorem capture_eq_ok {step : Lowering Unit} (h : capture step env s = (.ok f, s')) :
    ∃ t, step env { s with buffer := s.buffer.pushFrame } = (.ok (), t)
      ∧ f = t.buffer.popFrame.1 ∧ s' = { t with buffer := t.buffer.popFrame.2 } := by
  unfold capture at h
  rcases hstep : step env { s with buffer := s.buffer.pushFrame } with ⟨_ | a, t⟩ <;>
    simp only [hstep] at h
  · cases (Prod.mk.inj h).1
  · obtain ⟨hf, hs⟩ := Prod.mk.inj h
    exact ⟨t, rfl, (Except.ok.inj hf).symm, hs.symm⟩

/-- The parts of a subquery go into the anchor that it has taken. -/
theorem captureAt_eq_ok {id : AnchorId} {select : CapturedSelect}
    (h : captureAt id select env s = (.ok (), s')) : s' = s.setAnchor id (.captured select) := by
  rw [captureAt, AnchorTable.capture] at h
  split at h
  next hcapture =>
    split at hcapture
    · obtain rfl := Except.ok.inj hcapture
      exact (Prod.mk.inj h).2.symm
    · cases hcapture
  next => cases (Prod.mk.inj h).1

end Lowering

/-! ## The parts of a comparison -/

/-- Where the clauses of a subquery are lowered whose rows are compared: output goes to a frame of
its own, and the anchor for the condition is the last one. -/
def State.comparing (s : State) (c : SelectCore Exp Source) : State :=
  { s with
    buffer := s.buffer.pushFrame
    anchors := s.anchors.reserve.2
    scopes := ⟨.select, s.scopes.isEmpty, false, !(coreOperands c).sources.isEmpty⟩ :: s.scopes }

/-- The parts of a run that compares a value with the rows of a subquery. -/
structure QuantifiedRun (env : Environment) (operand : Exp) (op : ComparisonOperator)
    (quantifier : Quantifier) (c : SelectCore Exp Source) (s : State) (f : Fragment)
    (s' : State) where
  columns : Columns
  /-- The state once the operand is lowered. -/
  start : State
  sources : List Fragment
  /-- The columns of the items, as they are written and as they are compared. -/
  items : List (Columns × Columns)
  condition : Option Fragment
  /-- The clauses behind the condition. -/
  behind : List Fragment
  replacement : Fragment
  afterSources : State
  afterItems : State
  afterCondition : State
  last : State
  lower_operand : operand.lower env s = (.ok columns, start)
  pending : start.pending = none
  lower_sources : (coreOperands c).sources.mapM id env (start.comparing c)
    = (.ok sources, afterSources)
  lower_items : (coreOperands c).items.mapM (selectItem false) env afterSources
    = (.ok items, afterItems)
  lower_condition : Operand.single? (coreOperands c).condition "WHERE clause" env afterItems
    = (.ok condition, afterCondition)
  lower_behind : Setting.clausesBehind (coreOperands c) env
      (afterCondition.setAnchor start.anchors.reserve.1
        (.captured ⟨items.flatMap (·.2), condition⟩))
    = (.ok behind, last)
  replaces : quantifiedCondition columns op quantifier ⟨items.flatMap (·.2), condition⟩
    = .ok replacement
  fragment : f = quantifier.keyword ++ (Fragment.empty ++ behind.foldl (· ++ ·)
    (headText c.quantifier sources items
      ++ (" WHERE " ++ Fragment.ofAnchor start.anchors.reserve.1))).parenthesized
  state : s' = { start with
    anchors := last.anchors.set start.anchors.reserve.1 (.resolved replacement)
    parameters := last.parameters }

namespace QuantifiedRun

variable {env : Environment} {operand : Exp} {op : ComparisonOperator} {quantifier : Quantifier}
  {select : Select Exp Source} {c : SelectCore Exp Source} {s s' : State} {columns : Columns}
  {f : Fragment} {anchor : AnchorId}

/-- No step looks at what is promised about names, or at the anchors at the end. -/
theorem parts_unknown (env : Environment) (final : AnchorTable) (c : SelectCore Exp Source) :
    (Setting.unnamed env final).Parts Setting.unknown c :=
  Setting.parts_of_holds fun m _ => Setting.holds Setting.closed_unknown m

/-- Nothing has to be known about parameters here. -/
theorem ready_unnamed {final : AnchorTable} (h : s.pending = none) :
    (Setting.unnamed env final).Ready s :=
  ⟨h, False.elim⟩

/-- A select for which an anchor waits writes one fragment. -/
theorem writeInto_eq_ok {c : SelectCore Operand (Lowering Fragment)}
    (h : Setting.writeInto ⟨c, []⟩ anchor env s = (.ok (), s')) :
    ∃ f t, core c s.scopes.isEmpty (some anchor) env s = (.ok f, t)
      ∧ s' = { t with buffer := t.buffer.append f } := by
  change (core c s.scopes.isEmpty (some anchor) >>= _) env s = _ at h
  obtain ⟨f, t, hcore, h⟩ := bind_eq_ok.1 h
  exact ⟨f, t, hcore, (Prod.mk.inj h).2.symm⟩

/-- The clauses of a select with an anchor in the place of its condition. -/
theorem coreBody_eq_ok {c : SelectCore Operand (Lowering Fragment)}
    (h : coreBody c (some anchor) env s = (.ok f, s')) :
    ∃ sources s₁ items s₂ condition s₃ behind,
      c.sources.mapM id env s = (.ok sources, s₁)
      ∧ c.items.mapM (selectItem false) env s₁ = (.ok items, s₂)
      ∧ Operand.single? c.condition "WHERE clause" env s₂ = (.ok condition, s₃)
      ∧ Setting.clausesBehind c env
          (s₃.setAnchor anchor (.captured ⟨items.flatMap (·.2), condition⟩)) = (.ok behind, s')
      ∧ f = behind.foldl (· ++ ·)
          (headText c.quantifier sources items ++ (" WHERE " ++ Fragment.ofAnchor anchor)) := by
  rw [Setting.coreBody_eq] at h
  obtain ⟨sources, s₁, hsources, h⟩ := bind_eq_ok.1 h
  obtain ⟨items, s₂, hitems, h⟩ := bind_eq_ok.1 h
  obtain ⟨condition, s₃, hcondition, h⟩ := bind_eq_ok.1 h
  obtain ⟨_, s₄, hcapture, h⟩ := bind_eq_ok.1 h
  obtain ⟨_, t, hcaptureAt, hpure⟩ := bind_eq_ok.1 hcapture
  obtain rfl := captureAt_eq_ok hcaptureAt
  obtain ⟨rfl, rfl⟩ := eq_of_pure hpure
  rw [Setting.lastClauses_eq] at h
  obtain ⟨behind, _, hbehind, h⟩ := bind_eq_ok.1 h
  obtain ⟨rfl, rfl⟩ := eq_of_pure h
  exact ⟨sources, s₁, items, s₂, condition, s₃, behind, hsources, hitems, hcondition, hbehind, rfl⟩

/-- A reserved anchor has a place in the table. -/
theorem index_reserve_lt (s : State) :
    s.anchors.reserve.1.index < s.anchors.reserve.2.entries.length := by
  simp [AnchorTable.reserve, AnchorTable.size]

/-- The clauses of a subquery go well, one after the other. -/
theorem success_clauses {S : Setting} {sources : List Fragment} {items : List (Columns × Columns)}
    {condition : Option Fragment} {behind : List Fragment} {s₁ s₂ s₃ last : State}
    {R : Results} (hparts : S.Parts R c) (hs : S.Ready s)
    (hsources : (coreOperands c).sources.mapM id S.env (s.comparing c) = (.ok sources, s₁))
    (hitems : (coreOperands c).items.mapM (selectItem false) S.env s₁ = (.ok items, s₂))
    (hcondition : Operand.single? (coreOperands c).condition "WHERE clause" S.env s₂
      = (.ok condition, s₃))
    (hbehind : Setting.clausesBehind (coreOperands c) S.env
        (s₃.setAnchor s.anchors.reserve.1 (.captured ⟨items.flatMap (·.2), condition⟩))
      = (.ok behind, last)) :
    S.Success (List.Forall₂ R.source c.sources) (s.comparing c) sources s₁
      ∧ S.Success (List.Forall₂ (SelectItem.Form R false) c.items) s₁ items s₂
      ∧ S.Success (Option.Rel R.single c.condition) s₂ condition s₃
      ∧ S.Success (c.BehindForm R) (s₃.setAnchor s.anchors.reserve.1
        (.captured ⟨items.flatMap (·.2), condition⟩)) behind last := by
  have hready : S.Ready (s.comparing c) := ⟨hs.pending, hs.parameters⟩
  have h₁ := hparts.spec_sources.meets.success hready hsources
  have h₂ := (hparts.spec_items false).meets.success (h₁.ready hready) hitems
  have h₃ := hparts.spec_condition.meets.success (h₂.ready (h₁.ready hready)) hcondition
  have hready₃ := h₃.ready (h₂.ready (h₁.ready hready))
  exact ⟨h₁, h₂, h₃,
    hparts.spec_clausesBehind.meets.success ⟨hready₃.pending, hready₃.parameters⟩ hbehind⟩

/-- The clauses of a subquery leave the state as it was, but for anchors and parameters. -/
theorem keeps_clauses {sources : List Fragment} {items : List (Columns × Columns)}
    {condition : Option Fragment} {behind : List Fragment} {s₁ s₂ s₃ last : State}
    (hs : s.pending = none)
    (hsources : (coreOperands c).sources.mapM id env (s.comparing c) = (.ok sources, s₁))
    (hitems : (coreOperands c).items.mapM (selectItem false) env s₁ = (.ok items, s₂))
    (hcondition : Operand.single? (coreOperands c).condition "WHERE clause" env s₂
      = (.ok condition, s₃))
    (hbehind : Setting.clausesBehind (coreOperands c) env
        (s₃.setAnchor s.anchors.reserve.1 (.captured ⟨items.flatMap (·.2), condition⟩))
      = (.ok behind, last)) :
    State.Keeps
        ((s.comparing c).setAnchor s.anchors.reserve.1
          (.captured ⟨items.flatMap (·.2), condition⟩)) last
      ∧ last.issues = s.issues := by
  obtain ⟨h₁, h₂, h₃, h₄⟩ := success_clauses (parts_unknown env .empty c) (ready_unnamed hs) hsources
    hitems hcondition hbehind
  have hbefore := (h₁.keeps.trans h₂.keeps).trans h₃.keeps
  constructor
  · refine State.Keeps.trans ?_ h₄.keeps
    -- the anchor is there from the start, so the same entry changes in both tables
    exact ⟨hbefore.buffer, hbefore.scopes, hbefore.depth, hbefore.pending,
      AnchorTable.prefix_set hbefore.anchors (index_reserve_lt s), hbefore.parameters⟩
  · exact h₄.issues.trans (h₃.issues.trans (h₂.issues.trans h₁.issues))

/-- In standard surroundings, nothing is written in the place of a subquery. -/
theorem texts_eq_none {operand : Columns} {write : Lowering Unit} {text : StatementTexts → String}
    {subquery : Fragment} {t : State} (hpending : s.pending = some anchor)
    (hcapture : capture (writeOr text write) env s = (.ok subquery, t))
    (h : Setting.resolveWith operand op quantifier anchor subquery env t = (.ok columns, s')) :
    env.texts = none := by
  cases htexts : env.texts with
  | none => rfl
  | some texts =>
    -- the anchor still waits for a select
    obtain ⟨t', hwrite, -, rfl⟩ := capture_eq_ok hcapture
    rw [Setting.writeOr_apply, htexts] at hwrite
    obtain rfl := (Prod.mk.inj hwrite).2
    rw [Setting.resolveWith, bind_apply, takePending] at h
    simp only [hpending] at h
    cases (Prod.mk.inj h).1

/-- The state in which a new anchor waits for a select. -/
def waiting (s : State) : State :=
  { s with anchors := s.anchors.reserve.2, pending := some s.anchors.reserve.1 }

/-- The subquery of a comparison: its clauses are lowered one by one, and change anchors and
parameters only. -/
theorem capture_write_eq_ok {text : StatementTexts → String} {t : State} (hs : s.pending = none)
    (htexts : env.texts = none)
    (h : capture (writeOr text (writeSelect ⟨coreOperands c, []⟩)) env (waiting s) = (.ok f, t)) :
    ∃ sources s₁ items s₂ condition s₃ behind last,
      (coreOperands c).sources.mapM id env (s.comparing c) = (.ok sources, s₁)
      ∧ (coreOperands c).items.mapM (selectItem false) env s₁ = (.ok items, s₂)
      ∧ Operand.single? (coreOperands c).condition "WHERE clause" env s₂ = (.ok condition, s₃)
      ∧ Setting.clausesBehind (coreOperands c) env
          (s₃.setAnchor s.anchors.reserve.1 (.captured ⟨items.flatMap (·.2), condition⟩))
        = (.ok behind, last)
      ∧ f = Fragment.empty ++ behind.foldl (· ++ ·)
          (headText c.quantifier sources items
            ++ (" WHERE " ++ Fragment.ofAnchor s.anchors.reserve.1))
      ∧ t = { s with anchors := last.anchors, parameters := last.parameters }
      ∧ last.anchors.get? s.anchors.reserve.1
        = some (.captured ⟨items.flatMap (·.2), condition⟩) := by
  obtain ⟨t', hwrite, rfl, rfl⟩ := capture_eq_ok h
  rw [Setting.writeOr_apply, htexts] at hwrite
  change writeSelect _ env _ = _ at hwrite
  rw [Setting.writeSelect_apply rfl] at hwrite
  obtain ⟨output, t₁, hcore, rfl⟩ := writeInto_eq_ok hwrite
  obtain ⟨last, hbody, rfl⟩ := withScope_eq_ok hcore
  have hopen : coreBody (coreOperands c) (some s.anchors.reserve.1) env (s.comparing c)
      = (.ok output, last) := by
    rw [State.comparing, hs]
    exact hbody
  obtain ⟨sources, s₁, items, s₂, condition, s₃, behind, hsources, hitems, hcondition, hbehind,
    rfl⟩ := coreBody_eq_ok hopen
  obtain ⟨hkeeps, hissues⟩ := keeps_clauses hs hsources hitems hcondition hbehind
  have hget : last.anchors.get? s.anchors.reserve.1
      = some (.captured ⟨items.flatMap (·.2), condition⟩) :=
    AnchorTable.get?_of_prefix hkeeps.anchors (List.getElem?_set_self (index_reserve_lt s))
  refine ⟨sources, s₁, items, s₂, condition, s₃, behind, last, hsources, hitems, hcondition,
    hbehind, ?_, ?_, hget⟩
  -- what was opened is closed again
  · rw [show last.buffer = s.buffer.pushFrame from hkeeps.buffer, quantifier_coreOperands]
    rfl
  · have hscopes : last.scopes.tail = s.scopes := congrArg List.tail hkeeps.scopes
    have hdepth : last.depth = s.depth := hkeeps.depth
    have hpending : last.pending = s.pending := hkeeps.pending
    have hbuffer : last.buffer = s.buffer.pushFrame := hkeeps.buffer
    simp only [hscopes, hdepth, hpending, hissues, hbuffer]
    rfl

/-- Every comparison that goes well is with a single select, and has its parts. -/
theorem exists_quantifiedRun (hpending : s.pending = none)
    (h : (Exp.quantified operand op quantifier select).body env s = (.ok columns, s')) :
    select.rest = [] ∧ env.texts = none
      ∧ ∃ f, columns = [f]
        ∧ Nonempty (QuantifiedRun env operand op quantifier select.first s f s') := by
  obtain ⟨c, rest⟩ := select
  let S := Setting.unnamed env .empty
  rw [Exp.body, Setting.quantified_eq] at h
  cases rest with
  | cons arm rest => cases (Prod.mk.inj h).1
  | nil =>
    obtain ⟨operandColumns, start, hoperand, h⟩ := bind_eq_ok.1 h
    have hlowers : S.Lowers Setting.unknown operand :=
      Setting.holds Setting.closed_unknown (.exp operand)
    have hstart : start.pending = none :=
      ((hlowers.lower.meets.success (ready_unnamed hpending) hoperand).ready
        (ready_unnamed hpending)).pending
    change (capture (Select.write ⟨c, []⟩) >>= _) env (waiting start) = _ at h
    obtain ⟨subquery, t, hcapture, h⟩ := bind_eq_ok.1 h
    rw [Select.write, armOperands] at hcapture
    have htexts : env.texts = none := texts_eq_none rfl hcapture h
    obtain ⟨sources, s₁, items, s₂, condition, s₃, behind, last, hsources, hitems, hcondition,
      hbehind, rfl, rfl, hget⟩ := capture_write_eq_ok hstart htexts hcapture
    let t : State := { start with anchors := last.anchors, parameters := last.parameters }
    have hend := (Setting.resolveWith_apply (s := t) hstart hget env).symm.trans h
    cases hreplaces : quantifiedCondition operandColumns op quantifier
        ⟨items.flatMap (·.2), condition⟩ with
    | error violation =>
      rw [hreplaces] at hend
      cases (Prod.mk.inj hend).1
    | ok replacement =>
      rw [hreplaces] at hend
      obtain ⟨hcolumns, rfl⟩ := Prod.mk.inj hend
      obtain rfl := Except.ok.inj hcolumns
      exact ⟨rfl, htexts, _, rfl, ⟨{
        columns := operandColumns, start, sources, items, condition, behind, replacement
        afterSources := s₁, afterItems := s₂, afterCondition := s₃, last
        lower_operand := hoperand, pending := hstart
        lower_sources := hsources, lower_items := hitems, lower_condition := hcondition
        lower_behind := hbehind, replaces := hreplaces, fragment := rfl, state := rfl }⟩⟩

/-! ## The columns of a comparison -/

/-- What is known of results holds of the columns that are compared once the anchors of the
comparison are known, and of the condition of the subquery. -/
theorem results {S : Setting} {R : Results}
    (run : QuantifiedRun S.env operand op quantifier c s f s') (hs : S.Ready s)
    (hoperand : S.Lowers R operand) (hparts : S.Parts R c) (hfinal : s'.anchors ≤ S.final) :
    R.exp operand run.columns ∧ List.Forall₂ (SelectItem.Form R false) c.items run.items
      ∧ Option.Rel R.single c.condition run.condition := by
  have hstart := hoperand.lower.meets.success hs run.lower_operand
  obtain ⟨h₁, h₂, h₃, h₄⟩ := success_clauses hparts (hstart.ready hs) run.lower_sources
    run.lower_items run.lower_condition run.lower_behind
  let id := run.start.anchors.reserve.1
  have hreserve : run.start.anchors ≤ (run.start.comparing c).anchors :=
    AnchorTable.le_of_prefix (List.prefix_append ..)
  have hbefore : (run.start.comparing c).anchors.entries <+: run.afterCondition.anchors.entries :=
    (h₁.keeps.anchors.trans h₂.keeps.anchors).trans h₃.keeps.anchors
  -- the anchor is resolved last, and nothing was known about it before
  have hlast : run.afterCondition.anchors ≤ S.final := by
    have hget : run.afterCondition.anchors.get? id = some .reserved :=
      AnchorTable.get?_of_prefix hbefore List.getElem?_concat_length
    have hunresolved : run.afterCondition.anchors.resolved? id = none := by
      rw [AnchorTable.resolved?, hget]
    have hlt : id.index < run.afterCondition.anchors.entries.length :=
      lt_of_lt_of_le (index_reserve_lt run.start) hbefore.length_le
    let entry : AnchorState := .resolved run.replacement
    have hset : run.afterCondition.anchors ≤ run.afterCondition.anchors.set id entry :=
      AnchorTable.le_set hunresolved
    have hprefix : (run.afterCondition.anchors.set id entry).entries
        <+: (run.last.anchors.set id entry).entries := by
      have hresolved : (AnchorTable.set _ id entry).entries
          <+: (run.last.anchors.set id entry).entries :=
        AnchorTable.prefix_set h₄.keeps.anchors ((List.length_set ..).symm ▸ hlt)
      rwa [State.setAnchor, AnchorTable.set, AnchorTable.set, List.set_set] at hresolved
    rw [congrArg State.anchors run.state] at hfinal
    exact AnchorTable.le_trans hset (AnchorTable.le_trans (AnchorTable.le_of_prefix hprefix) hfinal)
  have hitems : run.afterItems.anchors ≤ S.final :=
    AnchorTable.le_trans (AnchorTable.le_of_prefix h₃.keeps.anchors) hlast
  refine ⟨hstart.result ?_, h₂.result hitems, h₃.result hlast⟩
  exact AnchorTable.le_trans hreserve
    (AnchorTable.le_trans (AnchorTable.le_of_prefix hbefore) hlast)

/-! ## The text of a comparison -/

/-- An expression that was lowered can be rendered with the anchors that there are then. -/
theorem exists_render_of_body {e : Exp} (hs : s.pending = none)
    (h : e.body env s = (.ok columns, s')) (hf : f ∈ columns) :
    ∃ text, s'.anchors.render f = .ok text := by
  let S := Setting.unnamed env s'.anchors
  let p : Sql.Promise := ⟨.nesting, False⟩
  have henv : S.env.Suits p := fun hp => hp.elim
  have hlowers : S.Lowers (S.fitting p) e :=
    Setting.holds (Setting.closed_fitting henv id) (.exp e)
  have hfit := (hlowers.meets.success ⟨hs, False.elim⟩ h).result (AnchorTable.le_refl _)
  obtain ⟨text, htext, -⟩ := (hfit (fun hp => hp.elim) f hf).fits.renderWithin
  exact ⟨text, htext⟩

/-- The condition of a subquery whose rows are compared: its own one, if it has one, and the
comparison. -/
def rowCondition : Option String → String → String
  | some condition, predicate => "(" ++ condition ++ ") AND " ++ predicate
  | none, predicate => predicate

/-- The replacement of an anchor, as a text. -/
theorem exists_rowCondition {t : AnchorTable} {operand : Columns} {captured : CapturedSelect}
    {replacement : Fragment} {text : String}
    (h : quantifiedCondition operand op quantifier captured = .ok replacement)
    (htext : t.render replacement = .ok text) :
    ∃ condition pairs predicate, Option.Rel (t.render · = .ok ·) captured.condition condition
      ∧ quantifiedPairs operand captured.columns = .ok pairs
      ∧ t.render (Sql.Predicate.quantified pairs op quantifier).sql = .ok predicate
      ∧ text = rowCondition condition predicate := by
  obtain ⟨pairs, hpairs, h⟩ := Except.bind_eq_ok.1 h
  cases hcondition : captured.condition with
  | none =>
    rw [hcondition] at h
    obtain rfl := Except.ok.inj h
    exact ⟨none, pairs, text, .none, hpairs, htext, rfl⟩
  | some condition =>
    rw [hcondition] at h
    obtain rfl := Except.ok.inj h
    obtain ⟨_, predicate, hfirst, hpredicate, rfl⟩ := AnchorTable.render_append_eq_ok.1 htext
    obtain ⟨_, hparenthesized, rfl⟩ := AnchorTable.render_append_text hfirst
    obtain ⟨x, hx, rfl⟩ := AnchorTable.render_parenthesized_eq_ok.1 hparenthesized
    refine ⟨some x, pairs, predicate, .some hx, hpairs, hpredicate, ?_⟩
    simp only [rowCondition, String.append_assoc]
    rfl

/-- The text of a comparison is made of those of its parts. -/
theorem exists_texts (run : QuantifiedRun env operand op quantifier c s f s') {text : String}
    (h : s'.anchors.render f = .ok text) :
    ∃ head condition pairs predicate behind,
      s'.anchors.render (headText c.quantifier run.sources run.items) = .ok head
      ∧ Option.Rel (s'.anchors.render · = .ok ·) run.condition condition
      ∧ quantifiedPairs run.columns (run.items.flatMap (·.2)) = .ok pairs
      ∧ s'.anchors.render (Sql.Predicate.quantified pairs op quantifier).sql = .ok predicate
      ∧ List.Forall₂ (s'.anchors.render · = .ok ·) run.behind behind
      ∧ text = quantifier.keyword ++ "(" ++ head ++ " WHERE " ++ rowCondition condition predicate
        ++ String.join behind ++ ")" := by
  have hresolved : s'.anchors.resolved? run.start.anchors.reserve.1 = some run.replacement := by
    have hkeeps := (keeps_clauses run.pending run.lower_sources run.lower_items run.lower_condition
      run.lower_behind).1
    have hlt : run.start.anchors.reserve.1.index < run.last.anchors.entries.length := by
      refine lt_of_lt_of_le ?_ hkeeps.anchors.length_le
      rw [State.setAnchor, AnchorTable.set, List.length_set]
      exact index_reserve_lt run.start
    rw [congrArg State.anchors run.state, AnchorTable.resolved?, AnchorTable.get?, AnchorTable.set,
      List.getElem?_set_self hlt]
  rw [run.fragment] at h
  obtain ⟨_, hparenthesized, rfl⟩ := AnchorTable.render_text_append h
  obtain ⟨_, hinside, rfl⟩ := AnchorTable.render_parenthesized_eq_ok.1 hparenthesized
  obtain ⟨_, _, hempty, hselect, rfl⟩ := AnchorTable.render_append_eq_ok.1 hinside
  obtain rfl := Except.ok.inj (AnchorTable.render_empty.symm.trans hempty)
  obtain ⟨_, behind, hbefore, hbehind, rfl⟩ := AnchorTable.render_foldl_eq_ok.1 hselect
  obtain ⟨head, _, hhead, hwhere, rfl⟩ := AnchorTable.render_append_eq_ok.1 hbefore
  obtain ⟨replaced, hanchor, rfl⟩ := AnchorTable.render_text_append hwhere
  obtain ⟨condition, pairs, predicate, hcondition, hpairs, hpredicate, rfl⟩ :=
    exists_rowCondition run.replaces (AnchorTable.render_ofAnchor hresolved hanchor)
  refine ⟨head, condition, pairs, predicate, behind, hhead, hcondition, hpairs, hpredicate, hbehind,
    ?_⟩
  simp only [String.append_assoc, String.empty_append]

/-- The items of a subquery whose rows are compared are written as they are compared. -/
theorem written_eq_compared (run : QuantifiedRun env operand op quantifier c s f s') :
    run.items.flatMap (·.1) = run.items.flatMap (·.2) := by
  obtain ⟨-, h₂, -⟩ := success_clauses (parts_unknown env run.afterItems.anchors c)
    (ready_unnamed run.pending) run.lower_sources run.lower_items run.lower_condition
    run.lower_behind
  exact List.flatMap_congr (forall_of_forall₂ (h₂.result (AnchorTable.le_refl _))
    fun _ _ _ hcolumns => hcolumns.2)

/-- Before its sources, a subquery shows the columns that are compared. -/
theorem exists_selected (run : QuantifiedRun env operand op quantifier c s f s') {head : String}
    (h : s'.anchors.render (headText c.quantifier run.sources run.items) = .ok head) :
    ∃ xs sources, List.Forall₂ (s'.anchors.render · = .ok ·) (run.items.flatMap (·.2)) xs
      ∧ head = "SELECT " ++ c.quantifier.sql ++ ",".intercalate xs ++ sources := by
  obtain ⟨_, sources, hbefore, -, rfl⟩ := AnchorTable.render_append_eq_ok.1 h
  obtain ⟨_, _, hselect, hjoin, rfl⟩ := AnchorTable.render_append_eq_ok.1 hbefore
  obtain ⟨_, hquantifier, rfl⟩ := AnchorTable.render_text_append hselect
  obtain rfl := Except.ok.inj ((AnchorTable.render_ofText _).symm.trans hquantifier)
  obtain ⟨xs, hxs, rfl⟩ := AnchorTable.render_join_eq_ok.1 hjoin
  rw [run.written_eq_compared] at hxs
  exact ⟨xs, sources, hxs, rfl⟩

end QuantifiedRun

end EntitySql
