import EntitySql.Proofs.Balance
import EntitySql.Proofs.Lowering.QuantifiedRun
import EntitySql.Proofs.TwoRuns.Statement

/-!
# Comparing with a subquery changes only its condition

A subquery whose rows are compared with a value is lowered with an anchor in the place of its
condition, and with no names for its columns. Otherwise it is lowered as it would be by itself: the
two runs are set side by side, from the state in which the value was lowered. The run of the
comparison has one more anchor, so the anchors of comparisons inside of the subquery have numbers
that are higher by one, and this is all that differs in its clauses. So the two texts have the same
clauses before and behind the condition, and the condition of the one is that of the other with the
comparison added to it.
-/

namespace EntitySql

open Lowering
open Sql (AnchorId AnchorState AnchorTable CapturedSelect Columns Fillings Fragment)

/-! ## One more anchor -/

/-- The same run twice, the second time with one more anchor behind the first `base` ones. -/
def TwoRuns.ofAnchor (env : Environment) (texts : env.texts = none) (base : Nat) : TwoRuns where
  Hole := Empty
  first := nofun
  second := nofun
  distinctive_first := nofun
  distinctive_second := nofun
  base
  gap := 1
  env
  prune := env.options.pruneNestedViews
  rename := id
  texts

namespace TwoRuns

variable {env : Environment} {htexts : env.texts = none} {base : Nat} {σ : List Scope}
  {c : SelectCore Exp Source}

/-- Texts without holes are the same on both sides. -/
theorem eq_of_alike_ofAnchor {a b : String} (h : (ofAnchor env htexts base).Alike a b) : a = b := by
  obtain ⟨template, rfl, rfl⟩ := h
  rcases template.fill_eq_or_exists_subset _ _ with heq | ⟨hole, -⟩
  · exact heq
  · exact hole.elim

/-- The two runs agree on every node. -/
theorem holds_ofAnchor (n : Node) : (ofAnchor env htexts base).Holds n :=
  holds n ⟨fun _ _ x _ => .refl (Sql.quoted x), fun _ _ _ _ _ _ _ _ => .refl .refl _⟩

/-- No text is replaced. -/
theorem image_ofAnchor : (ofAnchor env htexts base).image = Exp.operand := by
  funext e
  exact congrArg Exp.operand (Node.staysSame (.exp e))

theorem lowers_ofAnchor (e : Exp) : (ofAnchor env htexts base).Lowers σ e :=
  holds_ofAnchor (.exp e) σ

/-- The runs agree on the sources of the subquery. -/
theorem agree_sources :
    (ofAnchor env htexts base).Agree σ ((coreOperands c).sources.mapM id)
      ((coreOperands c).sources.mapM id) (ofAnchor env htexts base).ColumnsAlike := by
  rw [coreOperands_eq]
  refine Agree.mapM fun source _ => ?_
  have hsource : (ofAnchor env htexts base).Holds (.source source) := holds_ofAnchor _
  have hagree := hsource σ (PropertyUsage.ofReferences (coreReferences c))
    fun _ _ _ => .refl .refl _
  rwa [show source.mapTexts (ofAnchor env htexts base).rename = source from
    Node.staysSame (.source source)] at hagree

/-- The runs agree on the items of the subquery. -/
theorem agree_items (derivedAliases : Bool) :
    (ofAnchor env htexts base).Agree σ ((coreOperands c).items.mapM (selectItem derivedAliases))
      ((coreOperands c).items.mapM (selectItem derivedAliases))
      (List.Forall₂ (ofAnchor env htexts base).BothAlike) := by
  have hitems : (ofAnchor env htexts base).Agree σ
      ((c.items.map (.map Exp.operand)).mapM (selectItem derivedAliases))
      ((c.items.map (.map (ofAnchor env htexts base).image)).mapM (selectItem derivedAliases))
      (List.Forall₂ (ofAnchor env htexts base).BothAlike) :=
    .mapM fun item _ => agree_selectItem (lowers_ofAnchor item.exp)
  rw [image_ofAnchor] at hitems
  rw [coreOperands_eq]
  exact hitems

/-- The runs agree on the condition of the subquery. -/
theorem agree_condition {role : String} :
    (ofAnchor env htexts base).Agree σ (Operand.single? (coreOperands c).condition role)
      (Operand.single? (coreOperands c).condition role)
      (Option.Rel (ofAnchor env htexts base).FragmentsAlike) := by
  have hcondition : (ofAnchor env htexts base).Agree σ
      (Operand.single? (c.condition.map Exp.operand) role)
      (Operand.single? (c.condition.map (ofAnchor env htexts base).image) role)
      (Option.Rel (ofAnchor env htexts base).FragmentsAlike) :=
    agree_single? fun e _ => lowers_ofAnchor e
  rw [image_ofAnchor] at hcondition
  rw [coreOperands_eq]
  exact hcondition

/-- The runs agree on the clauses behind the condition. -/
theorem agree_behind :
    (ofAnchor env htexts base).Agree σ (Setting.clausesBehind (coreOperands c))
      (Setting.clausesBehind (coreOperands c)) (ofAnchor env htexts base).ColumnsAlike := by
  have hbehind : (ofAnchor env htexts base).Agree σ
      (Setting.clausesBehind (c.map Exp.operand
        (·.lower (PropertyUsage.ofReferences (coreReferences c)))))
      (Setting.clausesBehind (c.map (ofAnchor env htexts base).image
        (·.lower (PropertyUsage.ofReferences (coreReferences c)))))
      (ofAnchor env htexts base).ColumnsAlike :=
    agree_clausesBehind fun e _ => lowers_ofAnchor e
  rw [image_ofAnchor] at hbehind
  rw [coreOperands_eq]
  exact hbehind

/-- If the second step goes well, so does the first one. -/
theorem Agree.exists_ok {α β : Type} {W : TwoRuns} {x : Lowering α} {y : Lowering β}
    {R : α → β → Prop} (h : W.Agree σ x y R) {count : Nat} {s s' t' : State} {b : β}
    (hs : W.Related σ count s s') (hy : y W.other s' = (.ok b, t')) :
    ∃ a t, x W.env s = (.ok a, t) ∧ R a b ∧ W.Related σ count t t' := by
  obtain ⟨hresult, hstate⟩ := h count s s' hs
  rcases hx : x W.env s with ⟨result, t⟩
  rw [hx, hy] at hresult hstate
  cases hresult with
  | ok hab => exact ⟨_, t, rfl, hab, hstate⟩

/-- What is known about anchors that are not compared does not matter. -/
theorem Related.setAnchor {W : TwoRuns} {count : Nat} {s s' : State}
    (h : W.Related σ count s s') (id : AnchorId) (hid : id.index < W.base + W.gap)
    (entry : AnchorState) : W.Related σ count s (s'.setAnchor id entry) := by
  refine { h with anchors := ⟨?_, h.anchors.base_le, ?_⟩ }
  · rw [State.setAnchor, AnchorTable.set, List.drop_set_of_lt hid]
    exact h.anchors.entries
  · rw [State.setAnchor, AnchorTable.size, AnchorTable.set, List.length_set]
    exact h.anchors.size

/-- What renders in the first run renders to the same text in the second one. -/
theorem render_of_alike {t u : AnchorTable} {f g : Fragment} {text : String}
    (h : (ofAnchor env htexts base).TablesAlike t u)
    (hfg : (ofAnchor env htexts base).FragmentsAlike f g) (hf : t.render f = .ok text) :
    u.render g = .ok text := by
  have hresults := h.renderWithin (t.size + 1) hfg
  rw [AnchorTable.render] at hf
  rw [hf] at hresults
  generalize hg : u.renderWithin (t.size + 1) g = result at hresults
  cases hresults with
  | ok halike =>
    rw [eq_of_alike_ofAnchor halike]
    exact AnchorTable.render_eq_of_renderWithin hg

/-- What is alike has the same text, since there are no holes. -/
theorem renders_of_alike {t u : AnchorTable} {f g : Option Fragment} {text : Option String}
    (h : (ofAnchor env htexts base).TablesAlike t u)
    (hfg : Option.Rel (ofAnchor env htexts base).FragmentsAlike f g)
    (hf : Option.Rel (t.render · = .ok ·) f text) : Option.Rel (u.render · = .ok ·) g text := by
  cases hfg with
  | none =>
    cases hf
    exact .none
  | some hfg =>
    cases hf with
    | some hf => exact .some (render_of_alike h hfg hf)

end TwoRuns

/-! ## The subquery by itself -/

/-- The columns of the item are written as they are compared: without names. -/
def SelectItem.isBare (item : SelectItem Exp) : Bool :=
  match item.exp with
  | .navigation _ => false
  | _ => item.aliasName.isNone

/-- Bare items have no names, compared or not. -/
theorem selectItem_of_isBare {item : SelectItem Exp} (h : item.isBare = true) :
    selectItem true (item.map Exp.operand) = selectItem false (item.map Exp.operand) := by
  have hnamed (columns : Columns) : namedColumns (item.map Exp.operand) columns = columns := by
    obtain ⟨exp, aliasName, nestedAlias⟩ := item
    cases exp with
    | navigation value => cases h
    | _ =>
      obtain rfl : aliasName = none := Option.isNone_iff_eq_none.1 h
      rfl
  unfold selectItem
  simp only [hnamed, ite_self]

/-- Bare items are lowered alike, compared or not. -/
theorem mapM_selectItem {c : SelectCore Exp Source} (h : ∀ item ∈ c.items, item.isBare = true) :
    (coreOperands c).items.mapM (selectItem true)
      = (coreOperands c).items.mapM (selectItem false) := by
  rw [coreOperands_eq]
  show (c.items.map fun item => item.map Exp.operand).mapM _
    = (c.items.map fun item => item.map Exp.operand).mapM _
  generalize c.items = items at h ⊢
  induction items with
  | nil => rfl
  | cons item items ih =>
    obtain ⟨hitem, hitems⟩ := List.forall_mem_cons.1 h
    rw [List.map_cons, List.mapM_cons, List.mapM_cons, selectItem_of_isBare hitem, ih hitems]

/-- Where the clauses of a subquery are lowered that is a value by itself. -/
def State.alone (s : State) (c : SelectCore Exp Source) : State :=
  { s with
    buffer := s.buffer.pushFrame
    scopes := ⟨.select, s.scopes.isEmpty, true, !(coreOperands c).sources.isEmpty⟩ :: s.scopes }

/-- The states in which the clauses are lowered differ in one anchor. -/
theorem TwoRuns.related_alone {env : Environment} {htexts : env.texts = none} {s : State}
    {c : SelectCore Exp Source} (hs : s.pending = none) :
    (ofAnchor env htexts s.anchors.size).Related (s.alone c).scopes 0 (s.alone c)
      (s.comparing c) where
  buffer := ⟨rfl, Nat.zero_le _, .cons .empty .nil⟩
  anchors := by
    refine ⟨?_, Nat.le_refl _, ?_⟩
    · -- there are no anchors to compare yet
      have hfirst : (s.alone c).anchors.entries.drop s.anchors.size = [] :=
        List.drop_eq_nil_of_le (Nat.le_refl _)
      have hsecond : (s.comparing c).anchors.entries.drop (s.anchors.size + 1) = [] :=
        List.drop_eq_nil_of_le (by simp [State.comparing, AnchorTable.reserve, AnchorTable.size])
      show List.Forall₂ _ ((s.alone c).anchors.entries.drop s.anchors.size)
        ((s.comparing c).anchors.entries.drop (s.anchors.size + 1))
      rw [hfirst, hsecond]
      exact .nil
    · exact List.length_append
  parameters := rfl
  scopes := rfl
  scopes' := .cons ⟨rfl, rfl, rfl⟩ (List.forall₂_same.2 fun scope _ => .refl scope)
  pending := by
    show Option.Rel _ s.pending s.pending
    rw [hs]
    exact .none
  depth := rfl
  issues := rfl

namespace QuantifiedRun

variable {env : Environment} {operand : Exp} {op : ComparisonOperator} {quantifier : Quantifier}
  {c : SelectCore Exp Source} {s s' : State} {f : Fragment}

/-- The clauses of the subquery, lowered by themselves, are those of the comparison. -/
theorem exists_clauses (run : QuantifiedRun env operand op quantifier c s f s')
    (htexts : env.texts = none) (hbare : ∀ item ∈ c.items, item.isBare = true) :
    let W := TwoRuns.ofAnchor env htexts run.start.anchors.size
    ∃ sources items condition behind t,
      coreBody (coreOperands c) none env (run.start.alone c)
          = (.ok (behind.foldl (· ++ ·) (headText c.quantifier sources items
            ++ clause " WHERE " condition)), t)
        ∧ W.Related (run.start.alone c).scopes 0 t run.last
        ∧ W.FragmentsAlike (headText c.quantifier sources items)
          (headText c.quantifier run.sources run.items)
        ∧ Option.Rel W.FragmentsAlike condition run.condition
        ∧ W.ColumnsAlike behind run.behind := by
  intro W
  obtain ⟨sources, s₁, hsources, hsourcesAlike, hrelated₁⟩ :=
    TwoRuns.agree_sources.exists_ok (W := W) (TwoRuns.related_alone run.pending) run.lower_sources
  obtain ⟨items, s₂, hitems, hitemsAlike, hrelated₂⟩ :=
    (TwoRuns.agree_items false).exists_ok hrelated₁ run.lower_items
  obtain ⟨condition, s₃, hcondition, hconditionAlike, hrelated₃⟩ :=
    TwoRuns.agree_condition.exists_ok hrelated₂ run.lower_condition
  -- the anchor that takes the parts of the subquery is not among those that are compared
  obtain ⟨behind, t, hbehind, hbehindAlike, hrelated⟩ :=
    TwoRuns.agree_behind.exists_ok
      (hrelated₃.setAnchor run.start.anchors.reserve.1 (Nat.lt_succ_self _) _) run.lower_behind
  refine ⟨sources, items, condition, behind, t, ?_, hrelated, ?_, hconditionAlike, hbehindAlike⟩
  · rw [Setting.coreBody_eq]
    refine bind_eq_ok.2 ⟨sources, s₁, hsources, bind_eq_ok.2 ⟨items, s₂, ?_, ?_⟩⟩
    · exact (congrArg (· env s₁) (mapM_selectItem hbare)).trans hitems
    · refine bind_eq_ok.2 ⟨condition, s₃, hcondition, bind_eq_ok.2 ⟨_, s₃, rfl, ?_⟩⟩
      rw [Setting.lastClauses_eq, quantifier_coreOperands]
      exact bind_eq_ok.2 ⟨behind, t, hbehind, rfl⟩
  · exact TwoRuns.fragmentsAlike_headText _ hsourcesAlike
      (List.rel_flatMap hitemsAlike fun _ _ h => h.1)

/-- A subquery of one select, from the state in which its clauses end. -/
theorem subquery_body {output : Fragment} {t : State} (htexts : env.texts = none)
    (hs : s.pending = none)
    (h : coreBody (coreOperands c) none env (s.alone c) = (.ok output, t)) :
    (Exp.subquery ⟨c, []⟩).body env s
      = (.ok [(Fragment.empty ++ output).parenthesized],
        { t with buffer := s.buffer, scopes := t.scopes.tail }) := by
  have hcore : core (coreOperands c) s.scopes.isEmpty none env
      { s with buffer := s.buffer.pushFrame }
      = (.ok output, { t with scopes := t.scopes.tail }) := by
    exact congrArg (fun p => (p.1, { p.2 with scopes := p.2.scopes.tail })) h
  have hcores := (parts_unknown env .empty c).cores Setting.closed_unknown
  have hready : (Setting.unnamed env .empty).Ready { s with buffer := s.buffer.pushFrame } :=
    ready_unnamed hs
  have hbuffer : t.buffer = s.buffer.pushFrame :=
    ((hcores.meets _).success hready hcore).keeps.buffer
  have hwrite : Select.write ⟨c, []⟩ env { s with buffer := s.buffer.pushFrame }
      = (.ok (), { t with buffer := t.buffer.append output, scopes := t.scopes.tail }) := by
    rw [Select.write, Setting.writeOr_apply, htexts, Option.elim_none, writeSelect]
    have htake : takePending env { s with buffer := s.buffer.pushFrame }
        = (.ok none, { s with buffer := s.buffer.pushFrame }) := by
      rw [takePending, hs]
    refine bind_eq_ok.2 ⟨_, _, rfl, bind_eq_ok.2 ⟨none, _, htake, ?_⟩⟩
    exact bind_eq_ok.2 ⟨output, _, hcore, bind_eq_ok.2 ⟨(), _, rfl, rfl⟩⟩
  rw [Exp.body, subquery]
  refine bind_eq_ok.2 ⟨Fragment.empty ++ output, _, ?_, rfl⟩
  rw [capture, hwrite, hbuffer]
  rfl

/-- The anchors at the end of the comparison are those of the subquery by itself, and one more. -/
theorem tablesAlike_anchors (run : QuantifiedRun env operand op quantifier c s f s')
    {htexts : env.texts = none} {t : State} {σ : List Scope} {count : Nat}
    (h : (TwoRuns.ofAnchor env htexts run.start.anchors.size).Related σ count t run.last) :
    (TwoRuns.ofAnchor env htexts run.start.anchors.size).TablesAlike t.anchors s'.anchors := by
  have hset := h.setAnchor run.start.anchors.reserve.1 (Nat.lt_succ_self _)
    (.resolved run.replacement)
  rw [congrArg State.anchors run.state]
  exact hset.anchors

end QuantifiedRun

/-! ## The two texts -/

/-- The text of a select: what stands before the condition, the condition if there is one, and what
stands behind it. -/
structure SelectTexts where
  head : String
  condition : Option String
  behind : String

def SelectTexts.sql (texts : SelectTexts) : String :=
  texts.head ++ whereText texts.condition ++ texts.behind

/-- The text of a condition that may be missing. -/
theorem exists_of_render_clause {t : AnchorTable} {condition : Option Fragment} {text : String}
    (h : t.render (clause " WHERE " condition) = .ok text) :
    ∃ x, Option.Rel (t.render · = .ok ·) condition x ∧ text = whereText x := by
  cases condition with
  | none => exact ⟨none, .none, (Except.ok.inj (AnchorTable.render_empty.symm.trans h)).symm⟩
  | some f =>
    obtain ⟨x, hx, rfl⟩ := AnchorTable.render_text_append h
    exact ⟨some x, .some hx, rfl⟩

theorem eq_of_renders {t : AnchorTable} {f : Option Fragment} {x y : Option String}
    (hx : Option.Rel (t.render · = .ok ·) f x) (hy : Option.Rel (t.render · = .ok ·) f y) :
    x = y := by
  cases hx with
  | none =>
    cases hy
    rfl
  | some hx =>
    cases hy with
    | some hy => exact congrArg some (Except.ok.inj (hx.symm.trans hy))

/-- The text of a subquery is made of those of its clauses. -/
theorem exists_selectTexts {t : AnchorTable} {head : Fragment} {condition : Option Fragment}
    {behind : List Fragment} {text : String}
    (h : t.render (Fragment.empty ++ behind.foldl (· ++ ·)
      (head ++ clause " WHERE " condition)).parenthesized = .ok text) :
    ∃ texts : SelectTexts, t.render head = .ok texts.head
      ∧ Option.Rel (t.render · = .ok ·) condition texts.condition
      ∧ t.render (behind.foldl (· ++ ·) .empty) = .ok texts.behind
      ∧ text = "(" ++ texts.sql ++ ")" := by
  obtain ⟨_, hinside, rfl⟩ := AnchorTable.render_parenthesized_eq_ok.1 h
  obtain ⟨_, _, hempty, hselect, rfl⟩ := AnchorTable.render_append_eq_ok.1 hinside
  obtain rfl := Except.ok.inj (AnchorTable.render_empty.symm.trans hempty)
  obtain ⟨_, xs, hbefore, hbehind, rfl⟩ := AnchorTable.render_foldl_eq_ok.1 hselect
  obtain ⟨x, _, hhead, hwhere, rfl⟩ := AnchorTable.render_append_eq_ok.1 hbefore
  obtain ⟨y, hcondition, rfl⟩ := exists_of_render_clause hwhere
  refine ⟨⟨x, y, String.join xs⟩, hhead, hcondition, ?_, ?_⟩
  · exact AnchorTable.render_foldl_eq_ok.2 ⟨"", xs, rfl, hbehind, String.empty_append.symm⟩
  · rw [String.empty_append, SelectTexts.sql]

/-- A comparison with the rows of a subquery is lowered to that subquery, with the same text but for
its condition: the comparison of the columns is conjoined to it. What is compared are the columns
that the subquery selects. -/
theorem Exp.exists_subquery_of_quantified {env : Environment} {operand : Exp}
    {op : ComparisonOperator} {quantifier : Quantifier} {q : Select Exp Source} {s s' : State}
    {columns : Columns} (hs : s.pending = none)
    (hbare : ∀ item ∈ q.first.items, item.isBare = true)
    (h : (Exp.quantified operand op quantifier q).body env s = (.ok columns, s')) :
    ∃ compared start f g s₂, ∃ texts : SelectTexts, ∃ predicate,
      operand.lower env s = (.ok compared, start)
      ∧ columns = [f]
      ∧ (Exp.subquery q).body env start = (.ok [g], s₂)
      ∧ s₂.parameters = s'.parameters
      ∧ texts.condition.isSome = q.first.condition.isSome
      ∧ s₂.anchors.render g = .ok ("(" ++ texts.sql ++ ")")
      ∧ s'.anchors.render f
        = .ok (quantifier.keyword ++ "(" ++ SelectTexts.sql { texts with
          condition := some (QuantifiedRun.rowCondition texts.condition predicate) } ++ ")")
      ∧ ∃ selected pairs selectedTexts sources,
        quantifiedPairs compared selected = .ok pairs
        ∧ s'.anchors.render (Sql.Predicate.quantified pairs op quantifier).sql = .ok predicate
        ∧ List.Forall₂ (s'.anchors.render · = .ok ·) selected selectedTexts
        ∧ texts.head = "SELECT " ++ q.first.quantifier.sql ++ ",".intercalate selectedTexts
          ++ sources := by
  obtain ⟨hrest, htexts, f, rfl, ⟨run⟩⟩ := QuantifiedRun.exists_quantifiedRun hs h
  obtain ⟨c, rest⟩ := q
  obtain rfl : rest = [] := hrest
  obtain ⟨sources, items, condition, behind, t, hbody, hrelated, hhead, hcondition, hbehind⟩ :=
    run.exists_clauses htexts hbare
  have hsubquery := QuantifiedRun.subquery_body htexts run.pending hbody
  obtain ⟨_, htext⟩ := QuantifiedRun.exists_render_of_body run.pending hsubquery
    (List.mem_singleton_self _)
  obtain ⟨texts, hheadText, hconditionText, hbehindText, rfl⟩ := exists_selectTexts htext
  obtain ⟨_, hcompared⟩ := QuantifiedRun.exists_render_of_body hs h (List.mem_singleton_self _)
  obtain ⟨head', condition', pairs, predicate, behind', hhead', hcondition', hpairs, hpredicate,
    hbehind', rfl⟩ := run.exists_texts hcompared
  -- each clause has one text with the anchors of the comparison, and it is the one it has alone
  have htables := run.tablesAlike_anchors hrelated
  obtain rfl := Except.ok.inj
    (hhead'.symm.trans (TwoRuns.render_of_alike htables hhead hheadText))
  obtain rfl := eq_of_renders hcondition'
    (TwoRuns.renders_of_alike htables hcondition hconditionText)
  have hbehinds : String.join behind' = texts.behind := by
    have halike := TwoRuns.fragmentsAlike_foldl .empty hbehind
    have hjoined : s'.anchors.render (run.behind.foldl (· ++ ·) .empty)
        = .ok (String.join behind') :=
      AnchorTable.render_foldl_eq_ok.2 ⟨"", _, rfl, hbehind', String.empty_append.symm⟩
    exact Except.ok.inj (hjoined.symm.trans (TwoRuns.render_of_alike htables halike hbehindText))
  refine ⟨run.columns, run.start, f, _, _, texts, predicate, run.lower_operand, rfl, hsubquery, ?_,
    ?_, htext, ?_, run.items.flatMap (·.2), pairs, ?_⟩
  · rw [congrArg State.parameters run.state]
    exact hrelated.parameters.symm
  · have hlowered := run.lower_condition
    rw [coreOperands] at hlowered
    rw [← isSome_eq_of_rel hcondition', ← isSome_eq_of_rel (single?_eq_ok hlowered).1]
  · rw [hcompared, ← hbehinds]
    simp only [SelectTexts.sql, whereText, String.append_assoc]
  · obtain ⟨xs, rest, hxs, hsplit⟩ := run.exists_selected hhead'
    exact ⟨xs, rest, hpairs, hpredicate, hxs, hsplit⟩

namespace Sample

/-- Both subqueries, that of the comparison and the one in its condition, keep their clauses. -/
theorem exists_subquery_of_comparison :
    State.initial.pending = none
      ∧ (∀ item ∈ (comparedNames .ne .any otherNames).items, item.isBare = true)
      ∧ ∃ columns s',
        comparison.body (Environment.of catalog .default .builtin) .initial = (.ok columns, s')
        ∧ ∃ start f g s₂, ∃ texts : SelectTexts, ∃ predicate,
          columns = [f]
          ∧ (Exp.subquery ⟨comparedNames .ne .any otherNames, []⟩).body
              (Environment.of catalog .default .builtin) start = (.ok [g], s₂)
          ∧ s₂.anchors.render g = .ok ("(" ++ texts.sql ++ ")")
          ∧ s'.anchors.render f
            = .ok ("NOT EXISTS" ++ "(" ++ SelectTexts.sql { texts with
              condition := some (QuantifiedRun.rowCondition texts.condition predicate) } ++ ")") := by
  have hbare : ∀ item ∈ (comparedNames .ne .any otherNames).items, item.isBare = true := by decide
  obtain ⟨columns, hok⟩ := Except.exists_eq_ok
    (x := (comparison.body (Environment.of catalog .default .builtin) .initial).1)
    (by decide +kernel)
  rcases hbody : comparison.body (Environment.of catalog .default .builtin) .initial with
    ⟨result, s'⟩
  rw [hbody] at hok
  obtain rfl : result = .ok columns := hok
  obtain ⟨_, start, f, g, s₂, texts, predicate, -, hcolumns, hsubquery, -, -, halone, hcompared, -⟩ :=
    Exp.exists_subquery_of_quantified rfl hbare hbody
  exact ⟨rfl, hbare, columns, s', rfl, start, f, g, s₂, texts, predicate, hcolumns, hsubquery,
    halone, hcompared⟩

end Sample

end EntitySql
