import EntitySql.Proofs.Lists
import EntitySql.Proofs.Lowering.QuantifiedRun
import EntitySql.Proofs.Sql.Columnwise
import EntitySql.Proofs.Sql.Conjunct
import EntitySql.Proofs.Wording.Expression

/-!
# The condition of a compared subquery

A comparison with the rows of a subquery is put behind the condition of the subquery, with `AND`
between them. The columns that are compared are written there as they are, without parentheses.
`Exp.orFree_rowCondition_iff` says when the condition of the subquery is still a conjunct: if the
comparison is grouped, or if no column has an `OR` outside of parentheses. It is enough that neither
the operand nor an item of the subquery exposes an `OR`. If one does, the subquery can have rows
that its own condition rules out (`Sample.not_isConjunct_flagAmong`).
-/

namespace EntitySql

open Lowering
open Sql (AnchorTable Columns Fragment IsConjunct OrFree Predicate Shifts comparisonText isCommentFree
  isNotOr textSymbols)

/-! ## The text of the comparison -/

/-- The text of a comparison with a row: for `ALL` that the row is a counterexample, and for `ANY`
and `SOME` that it is an example. -/
def rowComparison (quantifier : Quantifier) (op : ComparisonOperator)
    (texts : List (String × String)) : String :=
  match quantifier with
  | .all => " AND ".intercalate (texts.map (comparisonText (.comparison op.negate)))
  | .any | .some =>
    let alternatives := " OR ".intercalate (texts.map (comparisonText (.comparison op)))
    if 1 < texts.length then "(" ++ alternatives ++ ")" else alternatives

variable {t : AnchorTable} {pairs : List (Fragment × Fragment)} {texts : List (String × String)}
  {text : String} {op : ComparisonOperator} {quantifier : Quantifier}

/-- The text of a comparison is that of its pairs. -/
theorem exists_rowComparison (hne : pairs ≠ [])
    (h : t.render (Predicate.quantified pairs op quantifier).sql = .ok text) :
    ∃ texts, List.Forall₂ t.Renders pairs texts ∧ text = rowComparison quantifier op texts := by
  have hexample (h : t.render (Predicate.quantified pairs op .any).sql = .ok text) :
      ∃ texts, List.Forall₂ t.Renders pairs texts ∧ text = rowComparison .any op texts := by
    rw [Predicate.quantified_any_eq_columnwise, Predicate.render_columnwise_eq_ok hne] at h
    obtain ⟨texts, htexts, rfl⟩ := h
    refine ⟨texts, htexts, ?_⟩
    rw [htexts.length_eq, Predicate.columnwiseText, rowComparison]
    simp only [decide_eq_true_eq]
    rfl
  cases quantifier with
  | all =>
    rw [Predicate.quantified_all_eq_columnwise] at h
    exact (Predicate.render_columnwise_eq_ok hne).1 h
  | any => exact hexample h
  | some => exact hexample h

/-- There is always something to compare. -/
theorem quantifiedPairs_ne_nil {operand columns : Columns}
    (h : quantifiedPairs operand columns = .ok pairs) : pairs ≠ [] := by
  rw [quantifiedPairs.eq_def] at h
  split at h
  · cases h
  next hcolumns =>
    have hne : columns ≠ [] := by simpa using hcolumns
    split at h
    next hlength =>
      obtain rfl := Except.ok.inj h
      intro hzip
      rcases List.zip_eq_nil_iff.1 hzip with rfl | rfl
      · exact hne (List.eq_nil_of_length_eq_zero hlength.symm)
      · exact hne rfl
    split at h
    · obtain rfl := Except.ok.inj h
      simpa using hne
    · cases h

/-! ## Reading the text -/

/-- A comparison closes what its sides open. -/
theorem shifts_comparisonText {x : String × String} (op : ComparisonOperator)
    (h : Shifts 0 0 (textSymbols x.1) ∧ Shifts 0 0 (textSymbols x.2)) :
    Shifts 0 0 (textSymbols (comparisonText (.comparison op) x)) := by
  have hop : Shifts 0 0 (textSymbols (" " ++ (BooleanOperator.comparison op).sql ++ " ")) := by
    cases op <;> decide
  exact (h.1.text hop).text h.2

/-- A comparison has an `OR` outside if one of its sides does. -/
theorem orFree_comparisonText_iff {x : String × String} (op : ComparisonOperator)
    (h : Shifts 0 0 (textSymbols x.1)) :
    OrFree (textSymbols (comparisonText (.comparison op) x))
      ↔ OrFree (textSymbols x.1) ∧ OrFree (textSymbols x.2) := by
  let operator := " " ++ (BooleanOperator.comparison op).sql ++ " "
  have hop : Sql.EndsWord isNotOr (textSymbols operator)
      ∧ Sql.beginsApart (textSymbols operator) = true := by
    cases op <;> decide
  rw [comparisonText, Sql.textSymbols_append, Sql.textSymbols_append]
  exact Sql.onlyWords_separated_iff h hop.1 hop.2

/-- A comparison with a row has no `OR` outside if it is grouped or no column has one. -/
theorem orFree_rowComparison_iff (quantifier : Quantifier) (op : ComparisonOperator)
    (h : ∀ x ∈ texts, Shifts 0 0 (textSymbols x.1) ∧ Shifts 0 0 (textSymbols x.2)) :
    OrFree (textSymbols (rowComparison quantifier op texts))
      ↔ (quantifier ≠ .all ∧ 1 < texts.length)
        ∨ ∀ x ∈ texts, OrFree (textSymbols x.1) ∧ OrFree (textSymbols x.2) := by
  have hshifts (op : ComparisonOperator) :
      ∀ x ∈ texts.map (comparisonText (.comparison op)), Shifts 0 0 (textSymbols x) :=
    List.forall_mem_map.2 fun x hx => shifts_comparisonText op (h x hx)
  have hall (op : ComparisonOperator) :
      (∀ x ∈ texts.map (comparisonText (.comparison op)), OrFree (textSymbols x))
        ↔ ∀ x ∈ texts, OrFree (textSymbols x.1) ∧ OrFree (textSymbols x.2) := by
    rw [List.forall_mem_map]
    exact forall₂_congr fun x hx => orFree_comparisonText_iff op (h x hx).1
  have hexample : OrFree (textSymbols (rowComparison .any op texts))
      ↔ 1 < texts.length ∨ ∀ x ∈ texts, OrFree (textSymbols x.1) ∧ OrFree (textSymbols x.2) := by
    rw [rowComparison]
    by_cases hseveral : 1 < texts.length
    · -- the alternatives are grouped
      rw [if_pos hseveral, Sql.textSymbols_append, Sql.textSymbols_append]
      have hopens : Sql.Opens isNotOr (textSymbols "(") := by decide
      have hseparator : Shifts 0 0 (textSymbols " OR ") := by decide
      have hjoined := Sql.shifts_intercalate hseparator (hshifts op)
      refine iff_of_true ?_ (.inl hseveral)
      exact ((hopens.append hjoined).close (by decide)).onlyWords
    · -- a single comparison has no connective
      rw [if_neg hseveral, or_iff_right hseveral, ← hall op]
      match texts with
      | [] => exact iff_of_true (show OrFree [] by decide) (List.forall_mem_nil _)
      | [x] => simp [String.intercalate_singleton]
      | _ :: _ :: _ => simp at hseveral
  cases quantifier with
  | all =>
    have hconjuncts : OrFree (textSymbols (rowComparison .all op texts))
        ↔ ∀ x ∈ texts, OrFree (textSymbols x.1) ∧ OrFree (textSymbols x.2) :=
      (Sql.onlyWords_intercalate_iff (by decide) (by decide) (hshifts op.negate)).trans
        (hall op.negate)
    simpa using hconjuncts
  | any => simpa using hexample
  | some =>
    change OrFree (textSymbols (rowComparison .any op texts)) ↔ _
    simpa using hexample

/-! ## Runs -/

/-- No keyword is `OR`, nor is a number or the database name of a parameter. -/
theorem admissible_isNotOr : Admissible isNotOr :=
  admissible_isNotWord (by decide) (by decide) (by decide)

/-- An expression that exposes no `OR` needs none. -/
theorem Exp.permits_of_exposesOr {e : Exp} (h : e.exposesOr = false) (P : List Char → Bool) :
    e.Permits P :=
  fun hexposes => absurd (h.symm.trans hexposes) Bool.false_ne_true

namespace QuantifiedRun

variable {env : Environment} {operand : Exp} {q : Select Exp Source} {s s' : State} {f : Fragment}

/-- What is compared closes what it opens, and has an `OR` outside at most if the expression exposes
one. -/
def Compares (t : AnchorTable) (e : Exp) (columns : Columns) : Prop :=
  (∀ g ∈ columns, Sql.Fits t .balanced 0 0 g) ∧ (e.exposesOr = false → AllOnly isNotOr columns)

/-- In plain surroundings, the columns that are compared close what they open, and so does the
condition of the subquery. -/
theorem compares (run : QuantifiedRun env operand op quantifier q.first s f s')
    (henv : env.Plain) (hfunctions : env.functions.WordsIn isNotOr) (hs : s.Orderly)
    (hproper : (Node.exp (.quantified operand op quantifier q)).Proper isNotOr) :
    Compares s'.anchors operand run.columns
      ∧ (∀ columns ∈ run.items, ∃ item ∈ q.first.items, Compares s'.anchors item.exp columns.2)
      ∧ ∀ g ∈ run.condition, Sql.Fits s'.anchors .balanced 0 0 g := by
  let S : Setting := ⟨env, s'.anchors, True⟩
  have hwording : S.Wording isNotOr (S.wording isNotOr) :=
    Setting.wording_wording admissible_isNotOr henv hfunctions trivial
  have hclosed : (S.wording isNotOr).Closed S :=
    Setting.closed_wording admissible_isNotOr henv hfunctions trivial
  have hcore : (Node.core q.first).Proper isNotOr :=
    (hproper.part (m := .select q) (by simp [Node.parts, Exp.parts])).part (List.mem_cons_self ..)
  have hexps : ∀ e ∈ q.first.exps, (Node.exp e).Proper isNotOr := fun e he =>
    hcore.part (List.mem_append_left _ (List.mem_map_of_mem he))
  have hcompares {e : Exp} {columns : Columns} (he : (Node.exp e).Proper isNotOr)
      (hcolumns : (S.wording isNotOr).exp e columns) : Compares s'.anchors e columns :=
    ⟨hwording.fitting.columns_fits hcolumns he.plain.suits,
      fun hexposes => hwording.exp hcolumns he (Exp.permits_of_exposesOr hexposes _)⟩
  obtain ⟨hcolumns, hitems, hcondition⟩ := run.results (S := S) ⟨hs.pending, fun _ => hs.bound⟩
    (Setting.holds hclosed (.exp operand))
    (Setting.parts_of_holds fun m _ => Setting.holds hclosed m) (AnchorTable.le_refl _)
  refine ⟨hcompares (hproper.part (List.mem_cons_self ..)) hcolumns, ?_, ?_⟩
  · refine forall_of_forall₂ hitems fun item hitem _ hitemColumns => ⟨item, hitem, ?_⟩
    have hmem : item.exp ∈ q.first.exps := by
      simp only [SelectCore.exps, List.append_assoc]
      exact List.mem_append_left _ (List.mem_map_of_mem hitem)
    exact hcompares (hexps item.exp hmem) hitemColumns.1
  · exact hwording.fitting.single? hcondition fun e he =>
      (hexps e (by simp_all [SelectCore.exps])).plain.suits

end QuantifiedRun

/-- The condition of a compared subquery is a conjunct of the condition that it is replaced by,
unless an `OR` stands outside in it. None does exactly if the comparison is grouped, or if none does
in the columns that are compared. -/
theorem Exp.orFree_rowCondition_iff {env : Environment} {operand condition : Exp}
    {op : ComparisonOperator} {quantifier : Quantifier} {q : Select Exp Source} {s s' : State}
    {columns : Columns} (henv : env.Plain) (hfunctions : env.functions.WordsIn isNotOr)
    (hs : s.Orderly) (hnames : (Node.exp (.quantified operand op quantifier q)).Plain)
    (hwords : (Node.exp (.quantified operand op quantifier q)).WordsIn isNotOr)
    (hcondition : q.first.condition = some condition)
    (h : (Exp.quantified operand op quantifier q).body env s = (.ok columns, s')) :
    ∃ f head w texts behind whole, columns = [f]
      ∧ s'.anchors.render f
        = .ok (quantifier.keyword ++ "(" ++ head ++ " WHERE " ++ whole ++ behind ++ ")")
      ∧ whole = "(" ++ w ++ ") AND " ++ rowComparison quantifier op texts
      ∧ (∃ g t t', condition.lower env t = (.ok [g], t') ∧ s'.anchors.render g = .ok w)
      ∧ (∃ compared start selected selectedTexts pairs sources,
        operand.lower env s = (.ok compared, start)
        ∧ List.Forall₂ (s'.anchors.render · = .ok ·) selected selectedTexts
        ∧ head = "SELECT " ++ q.first.quantifier.sql ++ ",".intercalate selectedTexts ++ sources
        ∧ quantifiedPairs compared selected = .ok pairs
        ∧ List.Forall₂ s'.anchors.Renders pairs texts)
      ∧ (OrFree (textSymbols whole) ↔ (quantifier ≠ .all ∧ 1 < texts.length)
        ∨ ∀ x ∈ texts, OrFree (textSymbols x.1) ∧ OrFree (textSymbols x.2))
      ∧ (operand.exposesOr = false → (∀ item ∈ q.first.items, item.exp.exposesOr = false) →
        OrFree (textSymbols whole))
      ∧ (OrFree (textSymbols whole) → isCommentFree whole = true → IsConjunct w whole) := by
  obtain ⟨-, -, f, rfl, ⟨run⟩⟩ := QuantifiedRun.exists_quantifiedRun hs.pending h
  obtain ⟨_, htext⟩ := QuantifiedRun.exists_render_of_body hs.pending h (List.mem_singleton_self _)
  obtain ⟨_, _, pairs, _, behind, hhead, hw, hpairs, hpredicate, -, rfl⟩ := run.exists_texts htext
  obtain ⟨texts, htexts, rfl⟩ := exists_rowComparison (quantifiedPairs_ne_nil hpairs) hpredicate
  obtain ⟨selectedTexts, sources, hselected, rfl⟩ := run.exists_selected hhead
  -- the subquery has a condition, and so has its text
  have hlowered := run.lower_condition
  rw [coreOperands, hcondition] at hlowered
  obtain ⟨g, hg, hrun⟩ := exists_of_rel_some (single?_eq_ok hlowered).1
  rw [hg] at hw
  obtain ⟨w, rfl, hwText⟩ := exists_of_rel_some hw
  obtain ⟨⟨hleft, hleftFree⟩, hitems, hinner⟩ :=
    run.compares henv hfunctions hs ⟨hnames, hwords⟩
  have hright : ∀ f ∈ run.items.flatMap (·.2), Sql.Fits s'.anchors .balanced 0 0 f :=
    List.forall_mem_flatMap.2 fun columns hcolumns =>
      (hitems columns hcolumns).elim fun _ hitem => hitem.2.1
  have hmem {pair : Fragment × Fragment} (hpair : pair ∈ pairs) :=
    Setting.Fitting.quantifiedPairs_mem hpairs hpair
  have hclosed : Shifts 0 0 (textSymbols w) := (hinner g hg).admits_of_render hwText trivial
  have htextsClosed : ∀ x ∈ texts, Shifts 0 0 (textSymbols x.1) ∧ Shifts 0 0 (textSymbols x.2) :=
    forall_of_forall₂ htexts fun pair hpair x hx =>
      ⟨(hleft _ (hmem hpair).1).admits_of_render hx.1 trivial,
        (hright _ (hmem hpair).2).admits_of_render hx.2 trivial⟩
  have hwhole := (Sql.orFree_conjoined_iff hclosed).trans
    (orFree_rowComparison_iff quantifier op htextsClosed)
  refine ⟨f, _, w, texts, String.join behind, _, rfl, htext, rfl, ⟨g, _, _, hrun, hwText⟩,
    ⟨run.columns, run.start, _, selectedTexts, pairs, sources, run.lower_operand, hselected, rfl,
      hpairs, htexts⟩, hwhole, fun hoperandFree hitemsFree => hwhole.2 (.inr ?_), fun hfree => ?_⟩
  · have hrightFree : AllOnly isNotOr (run.items.flatMap (·.2)) :=
      List.forall_mem_flatMap.2 fun columns hcolumns =>
        (hitems columns hcolumns).elim fun item hitem => hitem.2.2 (hitemsFree item hitem.1)
    exact forall_of_forall₂ htexts fun pair hpair x hx =>
      ⟨(hleftFree hoperandFree _ (hmem hpair).1).render (hleft _ (hmem hpair).1) hx.1,
        (hrightFree _ (hmem hpair).2).render (hright _ (hmem hpair).2) hx.2⟩
  · exact Sql.isConjunct_conjoined hclosed ((Sql.orFree_conjoined_iff hclosed).1 hfree)

namespace Sample

/-- The alternative that a widget is big or has its flag set, in parentheses or not. -/
def bigOrFlagged (parenthesized : Bool) : Exp :=
  .boolean
    (.boolean (.property ⟨"v", ["Size"], .ofClass 20, .primitive .double⟩) (.comparison .gt)
      (.literal (.ofValue (.integer 1))) false)
    .or (.property ⟨"v", ["Flag"], .ofClass 20, .primitive .boolean⟩) parenthesized

/-- Compares a flag with this item of the widgets that count seven. -/
def flagAmong (item : Exp) : Exp :=
  .quantified (.property ⟨"w", ["Flag"], .ofClass 20, .primitive .boolean⟩) .eq .any
    ⟨{ otherNames with
      quantifier := .unspecified
      items := [⟨item, none, none⟩]
      sources := [.ofClass ⟨20, "ts", "Widget", some "v", false⟩]
      condition := some (.boolean (.property ⟨"v", ["Count"], .ofClass 20, .primitive .long⟩)
        (.comparison .eq) (.literal (.ofValue (.integer 7))) false) }, []⟩

/-- All names in the comparison are plain, and those outside of brackets and quotes are words. -/
theorem names_flagAmong (m : Node) (hm : m.Within (.exp (flagAmong (bigOrFlagged true)))) :
    m.vocabulary.Plain ∧ m.HasWordIn isNotOr := by
  let Proper (n : Node) : Prop :=
    ∀ m : Node, m.Within n → m.vocabulary.Plain ∧ m.HasWordIn isNotOr
  have hleaf {n : Node} (hparts : n.parts = [])
      (hown : n.vocabulary.Plain ∧ n.HasWordIn isNotOr) : Proper n :=
    Node.forall_within_iff.2 ⟨hown, by rw [hparts]; exact List.forall_mem_nil _⟩
  have hproperty (p : PropertyName) (hown : ∀ x ∈ p.identifiers, Sql.Bracketable x) :
      Proper (.exp (.property p)) :=
    hleaf rfl ⟨⟨hown, List.forall_mem_nil _, List.forall_mem_nil _⟩, trivial⟩
  have hnumber (n : Int64) : Proper (.exp (.literal (.ofValue (.integer n)))) :=
    hleaf rfl ⟨⟨List.forall_mem_nil _, List.forall_mem_nil _, List.forall_mem_nil _⟩, trivial⟩
  have hboth {lhs rhs : Exp} {op : BooleanOperator} {parenthesized : Bool}
      (hl : Proper (.exp lhs)) (hr : Proper (.exp rhs)) :
      Proper (.exp (.boolean lhs op rhs parenthesized)) :=
    Node.forall_within_iff.2 ⟨⟨show Vocabulary.Plain {} by decide, trivial⟩,
      List.forall_mem_cons.2 ⟨hl, List.forall_mem_singleton.2 hr⟩⟩
  suffices hall : Proper (.exp (flagAmong (bigOrFlagged true))) from hall m hm
  refine Node.forall_within_iff.2 ⟨⟨by decide, trivial⟩, List.forall_mem_cons.2
    ⟨hproperty _ (by decide), List.forall_mem_singleton.2 ?_⟩⟩
  refine Node.forall_within_iff.2 ⟨⟨by decide, trivial⟩, List.forall_mem_singleton.2 ?_⟩
  refine Node.forall_within_iff.2 ⟨⟨by decide, trivial⟩, List.forall_mem_cons.2 ⟨?_, ?_⟩⟩
  · exact hboth (hboth (hproperty _ (by decide)) (hnumber 1)) (hproperty _ (by decide))
  · refine List.forall_mem_cons.2 ⟨hboth (hproperty _ (by decide)) (hnumber 7), ?_⟩
    exact List.forall_mem_singleton.2 (hleaf rfl ⟨by decide, trivial⟩)

/-- The text of the only column of an expression. -/
def columnText? (e : Exp) : Option String :=
  let run := e.body (.of catalog .default .builtin) .initial
  match run.1 with
  | .ok [f] => (run.2.anchors.render f).toOption
  | _ => none

/-- The widgets, as a query reads them. -/
def widgetView : String :=
  "(SELECT [ts_Widget].[Id] [ECInstanceId],20 [ECClassId],[ts_Widget].[Name] [Name],"
    ++ "[ts_Widget].[Size] [Size],[ts_Widget].[Position_X] [Position_X],"
    ++ "[ts_Widget].[Position_Y] [Position_Y],[ts_Widget].[P_X] [P_X],[ts_Widget].[P_Y] [P_Y],"
    ++ "[ts_Widget].[P_Z] [P_Z],[ts_Widget].[Q_X] [Q_X],[ts_Widget].[Q_Y] [Q_Y],"
    ++ "[ts_Widget].[Q_Z] [Q_Z],[ts_Widget].[Count] [Count],[ts_Widget].[Flag] [Flag],"
    ++ "[ts_Widget].[Created] [Created],[ts_Widget].[Color] [Color] FROM [main].[ts_Widget])"

/-- With the alternative in parentheses, the condition of the subquery is a conjunct. -/
theorem isConjunct_flagAmong :
    ∃ columns s', (flagAmong (bigOrFlagged true)).body (.of catalog .default .builtin) .initial
        = (.ok columns, s')
      ∧ ∃ f head w behind whole, columns = [f]
        ∧ s'.anchors.render f
          = .ok ("EXISTS" ++ "(" ++ head ++ " WHERE " ++ whole ++ behind ++ ")")
        ∧ OrFree (textSymbols whole) ∧ (isCommentFree whole = true → IsConjunct w whole) := by
  have henv : (Environment.of catalog .default .builtin).Plain :=
    ⟨Environment.standard_of .., by decide +kernel, by decide +kernel⟩
  obtain ⟨columns, hok⟩ := Except.exists_eq_ok
    (x := ((flagAmong (bigOrFlagged true)).body (.of catalog .default .builtin) .initial).1)
    (by decide +kernel)
  rcases hbody : (flagAmong (bigOrFlagged true)).body (.of catalog .default .builtin) .initial with
    ⟨result, s'⟩
  rw [hbody] at hok
  obtain rfl : result = .ok columns := hok
  obtain ⟨f, head, w, -, behind, whole, hcolumns, htext, -, -, -, -, hfree, hconjunct⟩ :=
    Exp.orFree_rowCondition_iff henv (by decide +kernel)
      State.orderly_initial
      (fun m hm => (names_flagAmong m hm).1) (fun m hm => (names_flagAmong m hm).2) rfl hbody
  have hwhole := hfree rfl (List.forall_mem_singleton.2 rfl)
  exact ⟨columns, s', rfl, f, head, w, behind, whole, hcolumns, htext, hwhole, hconjunct hwhole⟩

/-- Without parentheses the subquery has all rows whose flag is set, whatever they count. -/
theorem not_isConjunct_flagAmong :
    columnText? (flagAmong (bigOrFlagged false))
        = some ("EXISTS(SELECT [v].[Size] > 1 OR [v].[Flag] FROM " ++ widgetView ++ " [v] WHERE "
          ++ "([v].[Count] = 7) AND [w].[Flag] = [v].[Size] > 1 OR [v].[Flag])")
      ∧ ¬OrFree (textSymbols "([v].[Count] = 7) AND [w].[Flag] = [v].[Size] > 1 OR [v].[Flag]")
      ∧ ¬IsConjunct "[v].[Count] = 7"
        "([v].[Count] = 7) AND [w].[Flag] = [v].[Size] > 1 OR [v].[Flag]" := by
  refine ⟨by decide +kernel, by decide +kernel, ?_⟩
  rintro ⟨p, c, hp, hc, himp⟩
  have hpart : Sql.read? "[v].[Count] = 7" = some (.operand "[v].[Count] = 7") := by
    decide +kernel
  have hwhole : Sql.read? "([v].[Count] = 7) AND [w].[Flag] = [v].[Size] > 1 OR [v].[Flag]"
      = some (.or (.and (.operand "[v].[Count] = 7") (.operand "[w].[Flag] = [v].[Size] > 1"))
        (.operand "[v].[Flag]")) := by
    decide +kernel
  obtain rfl := Option.some.inj (hpart.symm.trans hp)
  obtain rfl := Option.some.inj (hwhole.symm.trans hc)
  have hcounted := himp (fun x => some (decide (x = "[v].[Flag]"))) (by decide +kernel)
  exact absurd hcounted (by decide +kernel)

end Sample

end EntitySql
