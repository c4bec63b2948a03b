import EntitySql.Lowering.Condition
import EntitySql.Proofs.TwoRuns.Value

/-!
# Conditions in two runs

Comparisons, ranges, patterns, and conditions on subqueries. Which columns of two composite values
are compared depends on their number, and on whether a comparison is redundant; both are the same in
the two runs.
-/

namespace EntitySql

open Lowering
open Sql (CapturedSelect Columns Comparison Fillings Fragment Predicate)

namespace TwoRuns

variable {W : TwoRuns} {σ : List Scope} {e lhs rhs : Exp} {fs gs fs' gs' : Columns}

/-! ## Comparisons -/

/-- The pairs of columns are alike, one by one. -/
abbrev PairsAlike (W : TwoRuns) : List (Fragment × Fragment) → List (Fragment × Fragment) → Prop :=
  List.Forall₂ fun p q => W.FragmentsAlike p.1 q.1 ∧ W.FragmentsAlike p.2 q.2

/-- The same connective between comparisons by one operator, of columns that are alike. -/
theorem fragmentsAlike_predicate {pairs pairs' : List (Fragment × Fragment)}
    {connective : Sql.Connective} {op : BooleanOperator} {grouped : Bool}
    (h : W.PairsAlike pairs pairs') :
    W.FragmentsAlike (Predicate.sql ⟨connective, pairs.map fun p => ⟨p.1, op, p.2⟩, grouped⟩)
      (Predicate.sql ⟨connective, pairs'.map fun p => ⟨p.1, op, p.2⟩, grouped⟩) := by
  have hsqls : W.ColumnsAlike ((pairs.map fun p => Comparison.mk p.1 op p.2).map (·.sql))
      ((pairs'.map fun p => Comparison.mk p.1 op p.2).map (·.sql)) := by
    rw [List.map_map, List.map_map, Fillings.ColumnsAlike, List.forall₂_map_left_iff,
      List.forall₂_map_right_iff]
    exact h.imp fun p q hpq => (hpq.1.append (.refl _)).append hpq.2
  unfold Predicate.sql
  cases h with
  | nil => exact .refl (.ofText "TRUE")
  | cons => exact (Fillings.FragmentsAlike.join _ hsqls).parenthesizedIf grouped

/-- Comparisons of alike columns are alike. -/
theorem fragmentsAlike_compound {op : BooleanOperator} {parenthesized : Bool}
    (h : W.ColumnsAlike fs gs) (h' : W.ColumnsAlike fs' gs') :
    W.FragmentsAlike (Predicate.compound fs op fs' parenthesized).sql
      (Predicate.compound gs op gs' parenthesized).sql := by
  have hpairs : W.PairsAlike
      ((fs.zip fs').filter fun p => !Predicate.isRedundant p.1 p.2)
      ((gs.zip gs').filter fun p => !Predicate.isRedundant p.1 p.2) := by
    refine List.rel_filter (fun p q hpq => ?_) (forall₂_zip h h')
    show (!Predicate.isRedundant p.1 p.2) = true ↔ (!Predicate.isRedundant q.1 q.2) = true
    rw [Fillings.isRedundant_eq hpq.1 hpq.2]
  unfold Predicate.compound
  dsimp only
  rw [hpairs.length_eq]
  exact fragmentsAlike_predicate hpairs

/-- Comparisons of alike pairs are alike. -/
theorem fragmentsAlike_quantified {pairs pairs' : List (Fragment × Fragment)}
    {op : ComparisonOperator} {quantifier : Quantifier} (h : W.PairsAlike pairs pairs') :
    W.FragmentsAlike (Predicate.quantified pairs op quantifier).sql
      (Predicate.quantified pairs' op quantifier).sql := by
  cases quantifier with
  | all => exact fragmentsAlike_predicate h
  | any | some =>
    rw [Predicate.quantified, Predicate.quantified, h.length_eq]
    exact fragmentsAlike_predicate h

/-! ## Operators -/

/-- Runs agree on type tests with the word that negates them. -/
theorem agree_negatedTypeTest {entries : List TypeEntry} {parenthesized : Bool}
    (h : W.Lowers σ e) (negation : String) :
    W.Agree σ
      (do
        let lhs ← e.operand.single "Left operand of IS (type list)"
        match TypeFilter.ofEntries? (← catalog) entries with
        | none => violate .emptyTypeList
        | some filter =>
          return [(lhs ++ (" " ++ negation ++ filter.sql)).parenthesizedIf parenthesized])
      (do
        let lhs ← (W.image e).single "Left operand of IS (type list)"
        match TypeFilter.ofEntries? (← catalog) entries with
        | none => violate .emptyTypeList
        | some filter =>
          return [(lhs ++ (" " ++ negation ++ filter.sql)).parenthesizedIf parenthesized])
      W.ColumnsAlike := by
  refine h.single.bind fun f g hfg => .catalog_bind ?_
  split
  · exact .violate
  · exact .pure (.singleton ((hfg.append (.refl _)).parenthesizedIf parenthesized))

/-- Runs agree on type tests. -/
theorem agree_typeTest {op : BooleanOperator} {entries : List TypeEntry} {parenthesized : Bool}
    (h : W.Lowers σ e) :
    W.Agree σ (typeTest e.operand op entries parenthesized)
      (typeTest (W.image e) op entries parenthesized) W.ColumnsAlike := by
  cases op with
  | is => exact agree_negatedTypeTest h ""
  | isNot => exact agree_negatedTypeTest h "NOT "
  | comparison | «in» | notIn | «match» | notMatch | and | or =>
    exact Agree.violate.bind (R := fun _ _ => False) fun _ _ hno => hno.elim

/-- Runs agree on operators between single columns. -/
theorem agree_singleOperands {op : BooleanOperator} {lhsRole rhsRole : String}
    {parenthesized : Bool} (hl : W.Lowers σ lhs) (hr : W.Lowers σ rhs) :
    W.Agree σ (singleOperands lhs.operand lhsRole op rhs.operand rhsRole parenthesized)
      (singleOperands (W.image lhs) lhsRole op (W.image rhs) rhsRole parenthesized)
      W.ColumnsAlike := by
  refine hl.single.bind fun l l' hl => hr.single.bind fun r r' hr => .pure (.singleton ?_)
  exact ((hl.append (.refl _)).append hr).parenthesizedIf parenthesized

/-- The rule for a step that depends on whether the expression is a list of classes. -/
theorem Agree.ofTypeList {α β : Type} {R : α → β → Prop} {x : List TypeEntry → Lowering α}
    {x' : List TypeEntry → Lowering β} {y : Lowering α} {y' : Lowering β} (e : Exp)
    (h : ∀ entries, W.Agree σ (x entries) (x' entries) R) (hother : W.Agree σ y y' R) :
    W.Agree σ
      (match e.operand.exp with
        | .typeList entries => x entries
        | _ => y)
      (match (W.image e).exp with
        | .typeList entries => x' entries
        | _ => y') R := by
  have himage : (W.image e).exp = e.mapTexts W.rename := rfl
  rw [himage]
  cases e with
  | typeList entries => rw [Exp.mapTexts]; exact h entries
  | _ => rw [Exp.mapTexts]; exact hother

/-- Runs agree on operators. -/
theorem agree_boolean {op : BooleanOperator} {parenthesized : Bool} (hl : W.Lowers σ lhs)
    (hr : W.Lowers σ rhs) :
    W.Agree σ (boolean lhs.operand op rhs.operand parenthesized)
      (boolean (W.image lhs) op (W.image rhs) parenthesized) W.ColumnsAlike := by
  refine .ofTypeList rhs (fun entries => agree_typeTest hl) ?_
  cases op with
  | and | or | «in» | notIn | «match» | notMatch => exact agree_singleOperands hl hr
  | comparison op | is | isNot =>
    refine (agree_lowerAligned hl hr).bind fun p q hpq => .pure (.singleton ?_)
    exact fragmentsAlike_compound hpq.1 hpq.2

/-- Runs agree on negations. -/
theorem agree_not {parenthesized : Bool} (h : W.Lowers σ e) :
    W.Agree σ (Lowering.not e.operand parenthesized) (Lowering.not (W.image e) parenthesized)
      W.ColumnsAlike := by
  refine h.single.bind fun f g hfg => .pure (.singleton ?_)
  exact Fillings.FragmentsAlike.parenthesizedIf (.append (.refl _) hfg) parenthesized

/-! ## Ranges and patterns -/

/-- Runs agree on how far a bound is widened. -/
theorem agree_rangeBound {width : Nat} (h : W.Lowers σ e) :
    W.Agree σ (rangeBound e.operand width) (rangeBound (W.image e) width) W.ColumnsAlike := by
  have hnull : (W.image e).exp.isNull = e.operand.exp.isNull := Exp.isNull_mapTexts ..
  have hparens : (W.image e).exp.isParenthesized = e.operand.exp.isParenthesized :=
    Exp.isParenthesized_mapTexts ..
  rw [rangeBound, rangeBound, hnull, hparens]
  split
  · exact .pure (Fillings.columnsAlike_nullColumns ..)
  · exact h.lower

/-- Range tests of alike columns are alike. -/
theorem fragmentsAlike_rangeTest {os os' ls ls' us us' : Columns} {negated : Bool}
    (ho : W.ColumnsAlike os os') (hl : W.ColumnsAlike ls ls') (hu : W.ColumnsAlike us us') :
    W.FragmentsAlike (rangeTest os ls us negated) (rangeTest os' ls' us' negated) := by
  have hterms : W.ColumnsAlike
      ((os.zip (ls.zip us)).map fun p =>
        p.1 ++ (if negated then " NOT BETWEEN " else " BETWEEN ") ++ p.2.1 ++ " AND " ++ p.2.2)
      ((os'.zip (ls'.zip us')).map fun p =>
        p.1 ++ (if negated then " NOT BETWEEN " else " BETWEEN ") ++ p.2.1 ++ " AND " ++ p.2.2) := by
    rw [Fillings.ColumnsAlike, List.forall₂_map_left_iff, List.forall₂_map_right_iff]
    refine (forall₂_zip ho (forall₂_zip hl hu)).imp fun p q hpq => ?_
    exact (((hpq.1.append (.refl _)).append hpq.2.1).append (.refl _)).append hpq.2.2
  unfold rangeTest
  dsimp only
  generalize List.map _ (os.zip (ls.zip us)) = terms at hterms ⊢
  generalize List.map _ (os'.zip (ls'.zip us')) = terms' at hterms ⊢
  have hjoined := (Fillings.FragmentsAlike.join (if negated then " OR " else " AND ")
    hterms).parenthesized
  cases hterms with
  | nil => exact hjoined
  | cons hterm hrest =>
    cases hrest with
    | nil => exact hterm
    | cons => exact hjoined

/-- Runs agree on range tests. -/
theorem agree_between {operand lower upper : Exp} {negated : Bool} (ho : W.Lowers σ operand)
    (hl : W.Lowers σ lower) (hu : W.Lowers σ upper) :
    W.Agree σ (between operand.operand lower.operand upper.operand negated)
      (between (W.image operand) (W.image lower) (W.image upper) negated) W.ColumnsAlike := by
  refine ho.lower.bind fun os os' ho => ?_
  rw [ho.length_eq]
  refine (agree_rangeBound hl).bind fun ls ls' hl => (agree_rangeBound hu).bind fun us us' hu => ?_
  rw [hl.length_eq, hu.length_eq]
  exact .guard Iff.rfl rfl (.pure (.singleton (fragmentsAlike_rangeTest ho hl hu)))

/-- Runs agree on patterns. -/
theorem agree_like {operand pattern : Exp} {escape : Option Exp} {negated : Bool}
    (ho : W.Lowers σ operand) (hp : W.Lowers σ pattern)
    (he : ∀ e ∈ escape.toList, W.Lowers σ e) :
    W.Agree σ (like operand.operand pattern.operand (escape.map Exp.operand) negated)
      (like (W.image operand) (W.image pattern) (escape.map W.image) negated) W.ColumnsAlike := by
  refine ho.single.bind fun o o' ho => hp.single.bind fun p p' hp => ?_
  refine (agree_single? he).bind fun e e' he => .pure (.singleton ?_)
  refine ((ho.append (.refl _)).append hp).append ?_
  cases he with
  | none => exact .refl _
  | some hfg => exact .append (.refl _) hfg

/-! ## Subqueries -/

/-- The runs agree on what a step writes. -/
abbrev Writes (W : TwoRuns) (σ : List Scope) (x y : Lowering Unit) : Prop :=
  W.Agree σ x y fun _ _ => True

variable {x y : Lowering Unit}

/-- Runs agree on subqueries. -/
theorem agree_subquery (h : W.Writes σ x y) :
    W.Agree σ (subquery x) (subquery y) W.ColumnsAlike :=
  (Agree.capture h).bind fun _ _ hfg => .pure (.singleton hfg.parenthesized)

/-- Runs agree on tests of subqueries. -/
theorem agree_subqueryTest {test : SubqueryTest} (h : W.Writes σ x y) :
    W.Agree σ (subqueryTest test x) (subqueryTest test y) W.ColumnsAlike := by
  cases test with
  | unique => exact .reject
  | «exists» =>
    exact (Agree.capture h).bind fun _ _ hfg =>
      .pure (.singleton (.append (.refl _) hfg.parenthesized))

/-- Columns can be compared on both sides or on none. -/
theorem same_quantifiedPairs (h : W.ColumnsAlike fs gs) (h' : W.ColumnsAlike fs' gs') :
    SameOutcome W.PairsAlike (quantifiedPairs fs fs') (quantifiedPairs gs gs') := by
  have hempty : gs'.isEmpty = fs'.isEmpty := by cases h' <;> rfl
  unfold quantifiedPairs
  rw [hempty, ← h.length_eq, ← h'.length_eq]
  split
  · exact .error _
  split
  · exact .ok (forall₂_zip h h')
  cases h with
  | nil => exact .error _
  | cons hfg hrest =>
    cases hrest with
    | nil =>
      -- a single column is compared with each of the others
      refine .ok ?_
      rw [PairsAlike, List.forall₂_map_left_iff, List.forall₂_map_right_iff]
      exact h'.imp fun _ _ hcolumn => ⟨hfg, hcolumn⟩
    | cons => exact .error _

/-- Anchors are replaced on both sides or on none. -/
theorem same_quantifiedCondition {op : ComparisonOperator} {quantifier : Quantifier}
    {captured captured' : CapturedSelect} (h : W.ColumnsAlike fs gs)
    (hcolumns : W.ColumnsAlike captured.columns captured'.columns)
    (hcondition : Option.Rel W.FragmentsAlike captured.condition captured'.condition) :
    SameOutcome W.FragmentsAlike (quantifiedCondition fs op quantifier captured)
      (quantifiedCondition gs op quantifier captured') := by
  obtain ⟨columns, condition⟩ := captured
  obtain ⟨columns', condition'⟩ := captured'
  refine (same_quantifiedPairs h hcolumns).bind fun pairs pairs' hpairs => ?_
  have hpredicate : W.FragmentsAlike (Predicate.quantified pairs op quantifier).sql
      (Predicate.quantified pairs' op quantifier).sql :=
    fragmentsAlike_quantified hpairs
  cases hcondition with
  | none => exact .ok hpredicate
  | some hfg => exact .ok ((hfg.parenthesized.append (.refl _)).append hpredicate)

/-- Runs agree on comparisons with subqueries, with alike anchors. -/
theorem agree_quantified {op : ComparisonOperator} {quantifier : Quantifier} {isCompound : Bool}
    (he : W.Lowers σ e) (h : W.Writes σ x y) :
    W.Agree σ (quantified e.operand op quantifier isCompound x)
      (quantified (W.image e) op quantifier isCompound y) W.ColumnsAlike := by
  unfold quantified
  refine .guard Iff.rfl rfl ?_
  refine he.lower.bind fun fs gs hfs => Agree.reserveAnchor.bind fun id id' hid => ?_
  refine (Agree.capture h).bind fun f g hfg => Agree.takePending.bind fun pending pending' hp => ?_
  have hpending : pending'.isSome = pending.isSome := by cases hp <;> rfl
  have hend : W.Agree σ
      (do
        let captured ← takeCapture id
        resolveAnchor id (← ofRule (quantifiedCondition fs op quantifier captured))
        return [quantifier.keyword ++ f.parenthesized])
      (do
        let captured ← takeCapture id'
        resolveAnchor id' (← ofRule (quantifiedCondition gs op quantifier captured))
        return [quantifier.keyword ++ g.parenthesized]) W.ColumnsAlike := by
    refine (Agree.takeCapture hid).bind fun captured captured' hcaptured => ?_
    refine (Agree.ofRule (same_quantifiedCondition hfs hcaptured.1 hcaptured.2)).bind
      fun r r' hr => ?_
    refine (Agree.resolveAnchor hid hr).bind fun _ _ _ => .pure (.singleton ?_)
    exact .append (.refl _) hfg.parenthesized
  rw [hpending]
  dsimp only
  split
  · exact Agree.violate.bind (R := fun _ _ => True) fun _ _ _ => hend
  · exact hend

end TwoRuns

end EntitySql
