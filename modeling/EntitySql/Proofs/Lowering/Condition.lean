import EntitySql.Proofs.Lowering.Call

/-!
# Conditions are lowered as specified

One lemma for each kind of condition, except for the comparison with the rows of a subquery. A list
of classes and a bound of a range that is `NULL` are not lowered, but nothing would happen if they
were.
-/

namespace EntitySql.Setting

open Lowering
open Sql (AnchorId CapturedSelect Columns Fragment)

variable {S : Setting} {R : Results} {e lhs rhs : Exp}

/-! ## Operators -/

/-- A type test with the word that negates it, if there is one. -/
theorem spec_negatedTypeTest {op : BooleanOperator} {entries : List TypeEntry}
    {parenthesized : Bool} {negation : String} (hl : S.Lowers R lhs)
    (hnegation : negation ∈ ["", "NOT "]) :
    S.Spec (S.eventsOf lhs) (do
      let lhs ← lhs.operand.single "Left operand of IS (type list)"
      match TypeFilter.ofEntries? (← catalog) entries with
      | none => violate .emptyTypeList
      | some filter =>
        return [(lhs ++ (" " ++ negation ++ filter.sql)).parenthesizedIf parenthesized])
      (Exp.Form S R (.boolean lhs op (.typeList entries) parenthesized)) := by
  refine (hl.single _).before fun f => .catalog_bind ?_
  split
  · exact .violate rfl
  · exact .pure fun hf => .typeTest hf hnegation

/-- Only `IS` and `IS NOT` test types. -/
theorem spec_typeTest {op : BooleanOperator} {entries : List TypeEntry} {parenthesized : Bool}
    (hl : S.Lowers R lhs) :
    S.Spec (S.eventsOf lhs) (typeTest lhs.operand op entries parenthesized)
      (Exp.Form S R (.boolean lhs op (.typeList entries) parenthesized)) := by
  cases op with
  | is => exact spec_negatedTypeTest hl (by decide)
  | isNot => exact spec_negatedTypeTest hl (by decide)
  | comparison | «in» | notIn | «match» | notMatch | and | or => exact .violate rfl

/-- Operators other than comparisons are put between single columns. -/
theorem spec_singleOperands {lhsRole rhsRole : String} {op : BooleanOperator}
    {parenthesized : Bool} (hl : S.Lowers R lhs) (hr : S.Lowers R rhs) :
    S.Spec (S.eventsOf lhs ++ S.eventsOf rhs)
      (singleOperands lhs.operand lhsRole op rhs.operand rhsRole parenthesized)
      (Exp.Form S R (.boolean lhs op rhs parenthesized)) :=
  (hl.single _).bind fun _ => (hr.single _).make fun _ hg hf => .boolean hf hg

/-- Comparisons are made on aligned columns, and other operators on single ones. -/
theorem spec_boolean {op : BooleanOperator} {parenthesized : Bool} (hl : S.Lowers R lhs)
    (hr : S.Lowers R rhs) :
    S.Spec (S.eventsOf lhs ++ S.eventsOf rhs) (boolean lhs.operand op rhs.operand parenthesized)
      (Exp.Form S R (.boolean lhs op rhs parenthesized)) := by
  rw [boolean.eq_def]
  split
  next entries hentries =>
    obtain rfl : rhs = .typeList entries := hentries
    have hevents : S.eventsOf (.typeList entries) = [] := by
      rw [eventsOf, Node.events_eq]
      rfl
    rw [hevents, List.append_nil]
    exact spec_typeTest hl
  next =>
    cases op with
    | and | or | «in» | notIn | «match» | notMatch => exact spec_singleOperands hl hr
    | comparison | is | isNot => exact (spec_lowerAligned hl hr).make fun _ => .compound

/-- A negation is put before one column. -/
theorem spec_not {parenthesized : Bool} (h : S.Lowers R e) :
    S.Spec (S.eventsOf e) (Lowering.not e.operand parenthesized)
      (Exp.Form S R (.not e parenthesized)) :=
  (h.single _).make fun _ => .not

/-! ## Ranges and patterns -/

/-- A bound of a range has the width of what it bounds. -/
theorem spec_rangeBound {width : Nat} (h : S.Lowers R e) :
    S.Spec (S.eventsOf e) (rangeBound e.operand width) (R.bound e width) := by
  refine .ite (fun hnull => ?_) fun _ => h.lower.imp fun _ => .inl
  have hevents : S.eventsOf e = [] := eventsOf_of_isNull hnull
  rw [hevents]
  exact .pure (.inr ⟨hnull, rfl⟩)

/-- A range test is made column by column. -/
theorem spec_between {lower upper : Exp} {negated : Bool} (h : S.Lowers R e)
    (hl : S.Lowers R lower) (hu : S.Lowers R upper) :
    S.Spec (S.eventsOf e ++ (S.eventsOf lower ++ S.eventsOf upper))
      (between e.operand lower.operand upper.operand negated)
      (Exp.Form S R (.between e lower upper negated)) := by
  refine h.lower.bind fun columns => (spec_rangeBound hl).bind fun lo => ?_
  refine (spec_rangeBound hu).before fun hi => .guard fun hwidths => .pure fun hhi hlo h => ?_
  simp only [ne_eq, Bool.or_eq_true, decide_eq_true_eq, not_or, not_not] at hwidths
  exact .between h hlo hhi hwidths.1 hwidths.2

/-- A pattern is matched with one column, with an escape character or without one. -/
theorem spec_like {pattern : Exp} {escape : Option Exp} {negated : Bool} (h : S.Lowers R e)
    (hp : S.Lowers R pattern) (hescape : ∀ a ∈ escape.toList, S.Lowers R a) :
    S.Spec (S.eventsOf e ++ (S.eventsOf pattern ++ escape.toList.flatMap S.eventsOf))
      (like e.operand pattern.operand (escape.map Exp.operand) negated)
      (Exp.Form S R (.like e pattern escape negated)) := by
  refine (h.single _).bind fun f => (hp.single _).bind fun g => ?_
  refine (spec_single? hescape _).make fun last hlast hg hf => ?_
  have hlike : Exp.Form S R (.like e pattern escape negated) _ := .like hf hg hlast
  cases last <;> exact hlike

/-! ## Subqueries -/

/-- What happens while a select is lowered. -/
def selectEvents (S : Setting) (w : Select Exp Source) : List Event :=
  (Node.select w).events S.env

/-- The select is written as specified. If an anchor waits for it, its columns and its condition go
there. Where a text stands in for all selects, this text is written, and the anchor is left
waiting. -/
structure Selects (S : Setting) (R : Results) (w : Select Exp Source) : Prop where
  produces : S.Produces (S.selectEvents w) w.write
    fun output => ∃ captured, R.select w none captured output
  fills : S.env.texts = none → ∀ id, ∃ taken, S.FillsWriting id taken (R.select w (some id))
    ∧ ∀ s, s.pending = some id → w.write S.env s = taken S.env { s with pending := none }
  standsIn : S.env.texts ≠ none → ∃ text, ∀ s, w.write S.env s = Lowering.append text S.env s

variable {w : Select Exp Source}

/-- The output of a select can be captured instead of written. -/
theorem Selects.capture (h : S.Selects R w) :
    S.Spec (S.selectEvents w) (Lowering.capture w.write)
      fun f => ∃ captured, R.output w none captured f :=
  (Spec.capture h.produces).imp fun _ ⟨g, ⟨captured, hg⟩, hsymbols⟩ =>
    ⟨captured, g, hg, hsymbols⟩

/-- A subquery is written in parentheses. -/
theorem spec_subquery (h : S.Selects R w) :
    S.Spec (S.selectEvents w) (subquery w.write) (Exp.Form S R (.subquery w)) :=
  h.capture.make fun _ ⟨_, hf⟩ => .subquery hf

/-- Whether a subquery has rows can be tested; uniqueness cannot. -/
theorem spec_subqueryTest {test : SubqueryTest} (h : S.Selects R w) :
    S.Spec (S.selectEvents w) (subqueryTest test w.write)
      (Exp.Form S R (.subqueryTest test w)) := by
  cases test with
  | unique => exact .reject
  | «exists» => exact h.capture.make fun _ ⟨_, hf⟩ => .exists hf

end EntitySql.Setting
