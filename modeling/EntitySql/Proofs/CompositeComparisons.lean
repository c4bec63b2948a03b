import EntitySql.Lowering.Condition
import EntitySql.Proofs.Sql.Columnwise

/-!
# Comparing composite values, directly and with the rows of a subquery

A comparison of two composite values and a comparison with `ANY` or `ALL` rows of a subquery both
connect the comparisons of the columns. Directly, `OR` connects them for `<>` and `AND` for the
other operators. With `ANY` it is always `OR`, and with `ALL` always `AND` between the comparisons
with the negated operator.

`value_quantified_eq_iff` reads the three texts. The condition for `ANY` has the value of the direct
comparison, and the condition for `ALL` the opposite one, only if the operator is `<>` or all
columns compare alike; a single column always does.
-/

namespace EntitySql.Sql

open Condition (connected)

/-! ## Connected conditions with the same or the opposite operands -/

namespace Condition

variable {truth : String → Option Bool} {first first' : Condition} {rest rest' : List Condition}

/-- A value is known by whether it is true and whether it is false. -/
theorem value_ext {a b : Option Bool} (htrue : a = some true ↔ b = some true)
    (hfalse : a = some false ↔ b = some false) : a = b := by
  rcases a with _ | _ | _ <;> rcases b with _ | _ | _ <;> simp_all

/-- A disjunction is true if one condition is. -/
theorem value_or_eq_true :
    (connected .or first rest).value truth = some true
      ↔ ∃ c ∈ first :: rest, c.value truth = some true :=
  value_connected_eq_deciding .or

/-- A disjunction is false if all conditions are. -/
theorem value_or_eq_false :
    (connected .or first rest).value truth = some false
      ↔ ∀ c ∈ first :: rest, c.value truth = some false :=
  value_connected_eq_other .or

/-- A conjunction is true if all conditions are. -/
theorem value_and_eq_true :
    (connected .and first rest).value truth = some true
      ↔ ∀ c ∈ first :: rest, c.value truth = some true :=
  value_connected_eq_other .and

/-- A conjunction is false if one condition is. -/
theorem value_and_eq_false :
    (connected .and first rest).value truth = some false
      ↔ ∃ c ∈ first :: rest, c.value truth = some false :=
  value_connected_eq_deciding .and

/-- Whether any of the conditions holds is whether all of them do only if they have the same
value. -/
theorem value_or_eq_value_and_iff :
    (connected .or first rest).value truth = (connected .and first rest).value truth
      ↔ ∀ c ∈ first :: rest, ∀ c' ∈ first :: rest, c.value truth = c'.value truth := by
  constructor
  · intro heq c hc c' hc'
    have htrue {a b : Condition} (ha : a ∈ first :: rest) (hb : b ∈ first :: rest)
        (h : a.value truth = some true) : b.value truth = some true := by
      apply value_and_eq_true.1 _ b hb
      rw [← heq, value_or_eq_true]
      exact ⟨a, ha, h⟩
    have hfalse {a b : Condition} (ha : a ∈ first :: rest) (hb : b ∈ first :: rest)
        (h : a.value truth = some false) : b.value truth = some false := by
      apply value_or_eq_false.1 _ b hb
      rw [heq, value_and_eq_false]
      exact ⟨a, ha, h⟩
    exact value_ext ⟨htrue hc hc', htrue hc' hc⟩ ⟨hfalse hc hc', hfalse hc' hc⟩
  · intro hsame
    have hmem : first ∈ first :: rest := List.mem_cons_self ..
    have hall (b : Bool) : (∃ c ∈ first :: rest, c.value truth = some b)
        ↔ ∀ c ∈ first :: rest, c.value truth = some b :=
      ⟨fun ⟨c, hc, h⟩ c' hc' => hsame c hc c' hc' ▸ h, fun h => ⟨first, hmem, h first hmem⟩⟩
    apply value_ext
    · rw [value_or_eq_true, value_and_eq_true, hall]
    · rw [value_or_eq_false, value_and_eq_false, hall]

/-- The connectives agree only if they are the same or all conditions have one value. -/
theorem value_or_eq_value_connected_iff {connective : Connective} :
    (connected .or first rest).value truth = (connected connective first rest).value truth
      ↔ connective = .or
        ∨ ∀ c ∈ first :: rest, ∀ c' ∈ first :: rest, c.value truth = c'.value truth := by
  cases connective with
  | or => simp
  | and => simpa using value_or_eq_value_and_iff

/-- Connected in any way, conditions hold only if one of them does. -/
theorem value_or_of_value_connected {connective : Connective}
    (h : (connected connective first rest).value truth = some true) :
    (connected .or first rest).value truth = some true := by
  cases connective with
  | or => exact h
  | and =>
    have hmem : first ∈ first :: rest := List.mem_cons_self ..
    exact value_or_eq_true.2 ⟨first, hmem, value_and_eq_true.1 h first hmem⟩

/-- Connected in any way, conditions fail if all of them do. -/
theorem value_connected_of_value_or {connective : Connective}
    (h : (connected .or first rest).value truth = some false) :
    (connected connective first rest).value truth = some false := by
  cases connective with
  | or => exact h
  | and =>
    have hmem : first ∈ first :: rest := List.mem_cons_self ..
    exact value_and_eq_false.2 ⟨first, hmem, value_or_eq_false.1 h first hmem⟩

end Condition

/-! ## Comparisons of columns -/

namespace Predicate

variable {t : AnchorTable} {pairs : List (Fragment × Fragment)} {texts : List (String × String)}

/-- The conditions that the comparisons of the columns are read as. -/
def Components (op : ComparisonOperator) (texts : List (String × String))
    (conditions : List Condition) : Prop :=
  List.Forall₂ (fun pair condition => read? (comparisonText (.comparison op) pair) = some condition)
    texts conditions

/-- No comparison is left out. -/
theorem compound_eq {lhs rhs : Columns}
    (hkept : ∀ pair ∈ lhs.zip rhs, isRedundant pair.1 pair.2 = false)
    (op : BooleanOperator) (parenthesized : Bool) :
    ∃ grouped, compound lhs op rhs parenthesized
      = columnwise (if op.isNegative then .or else .and) op (lhs.zip rhs) grouped := by
  have hfilter : keptPairs lhs rhs = lhs.zip rhs :=
    List.filter_eq_self.2 fun pair hpair => by simpa using hkept pair hpair
  exact ⟨_, (compound_eq_columnwise ..).trans (by rw [hfilter])⟩

end Predicate

/-! ## Rows of a subquery -/

open Lowering in
/-- The condition of a compared subquery, with the pairs in it. -/
theorem quantifiedCondition_eq {lhs rhs : Columns} (hlength : lhs.length = rhs.length)
    (hne : lhs ≠ []) (op : ComparisonOperator) (quantifier : Quantifier) :
    quantifiedCondition lhs op quantifier ⟨rhs, none⟩
      = .ok (Predicate.quantified (lhs.zip rhs) op quantifier).sql := by
  have hpairs : quantifiedPairs lhs rhs = .ok (lhs.zip rhs) := by
    have hrhs : rhs.isEmpty = false := by
      rw [List.isEmpty_eq_false_iff, ← List.length_pos_iff, ← hlength]
      exact List.length_pos_of_ne_nil hne
    unfold quantifiedPairs
    rw [hrhs, if_pos hlength]
    rfl
  unfold quantifiedCondition
  rw [hpairs]
  rfl

/-- A direct comparison is negative only for `<>`. -/
theorem directConnective_eq (op : ComparisonOperator) :
    (if (BooleanOperator.comparison op).isNegative then Connective.or else .and)
      = if op = .ne then .or else .and := by
  cases op <;> rfl

open Lowering in
/-- Where all columns are operands, the three texts are read as the comparisons of the columns: the
direct comparison with `OR` between them for `<>` and with `AND` for other operators, the condition
for `ANY` with `OR`, and the condition for `ALL` as the opposite comparisons with `AND`. So the
condition for `ANY` has the value of the direct comparison, and the condition for `ALL` the opposite
one, exactly if the operator is `<>` or all columns compare alike. In any case `ANY` holds where the
direct comparison does, and where `ALL` finds a counterexample the direct comparison fails. -/
theorem value_quantified_eq_iff {t : AnchorTable} {lhs rhs : Columns}
    {texts : List (String × String)} (hlength : lhs.length = rhs.length) (hne : lhs ≠ [])
    (hkept : ∀ pair ∈ lhs.zip rhs, Predicate.isRedundant pair.1 pair.2 = false)
    (htexts : List.Forall₂ t.Shows (lhs.zip rhs) texts) (op : ComparisonOperator)
    (parenthesized : Bool) :
    ∃ first rest first' rest',
      Predicate.Components op texts (first :: rest)
      ∧ Predicate.Components op.negate texts (first' :: rest')
      ∧ t.ReadsAs (Predicate.compound lhs (.comparison op) rhs parenthesized).sql
        (connected (if op = .ne then .or else .and) first rest)
      ∧ (∀ quantifier ≠ .all, ∃ f, quantifiedCondition lhs op quantifier ⟨rhs, none⟩ = .ok f
        ∧ t.ReadsAs f (connected .or first rest))
      ∧ (∃ f, quantifiedCondition lhs op .all ⟨rhs, none⟩ = .ok f
        ∧ t.ReadsAs f (connected .and first' rest'))
      ∧ ∀ truth,
        let direct := (connected (if op = .ne then .or else .and) first rest).value truth
        let anyRow := (connected .or first rest).value truth
        let allRows := (connected .and first' rest').value truth
        let alike := ∀ c ∈ first :: rest, ∀ c' ∈ first :: rest, c.value truth = c'.value truth
        (anyRow = direct ↔ op = .ne ∨ alike)
        ∧ (direct = some true → anyRow = some true)
        ∧ (List.Forall₂ (fun c c' => c.value truth = (c'.value truth).map (!·)) (first' :: rest')
            (first :: rest) →
          (allRows = direct.map (!·) ↔ op = .ne ∨ alike)
          ∧ (allRows = some true → direct = some false)) := by
  have hpairs : lhs.zip rhs ≠ [] := by
    rw [← List.length_pos_iff, List.length_zip, ← hlength, Nat.min_self]
    exact List.length_pos_of_ne_nil hne
  obtain ⟨grouped, hcompound⟩ := Predicate.compound_eq hkept (.comparison op) parenthesized
  rw [directConnective_eq] at hcompound
  have hcompares (op : ComparisonOperator) :
      (BooleanOperator.comparison op).comparesColumns = true :=
    rfl
  obtain ⟨first, rest, hcomponents, hreads⟩ :=
    Predicate.exists_readsAs_columnwise (hcompares op) htexts hpairs
  obtain ⟨first', rest', hopposites, hreads'⟩ :=
    Predicate.exists_readsAs_columnwise (hcompares op.negate) htexts hpairs
  have hop : (if op = .ne then Connective.or else .and) = .or ↔ op = .ne := by
    simp
  refine ⟨first, rest, first', rest', hcomponents, hopposites, hcompound ▸ hreads _ grouped, ?_,
    ?_, ?_⟩
  · intro quantifier hquantifier
    refine ⟨_, quantifiedCondition_eq hlength hne op quantifier, ?_⟩
    cases quantifier with
    | all => exact absurd rfl hquantifier
    | any | some => exact hreads .or _
  · exact ⟨_, quantifiedCondition_eq hlength hne op .all, hreads' .and _⟩
  · intro truth direct anyRow allRows alike
    have hany : anyRow = direct ↔ op = .ne ∨ alike := by
      rw [← hop]
      exact Condition.value_or_eq_value_connected_iff
    refine ⟨hany, Condition.value_or_of_value_connected, fun hopposite => ?_⟩
    obtain ⟨hfirst, hrest⟩ := List.forall₂_cons.1 hopposite
    -- the counterexamples are the rows where the columns compare in no way as asked
    have hall : allRows = anyRow.map (!·) := Condition.value_connected_of_opposite hfirst hrest
    rw [hall, Option.map_inj_right (fun _ _ => by simp)]
    refine ⟨hany, fun htrue => Condition.value_connected_of_value_or ?_⟩
    simpa using htrue

end EntitySql.Sql

namespace EntitySql.Sample

open Sql (AnchorTable Columns Predicate)
open Lowering (quantifiedCondition)

/-- The texts of the position of a widget and of the position of another one. -/
def positions : List (String × String) :=
  [("[w].[Position_X]", "[v].[Position_X]"), ("[w].[Position_Y]", "[v].[Position_Y]")]

/-- The position of a widget. -/
def here : Columns :=
  positions.map (.ofText ·.1)

/-- The position of another widget. -/
def there : Columns :=
  positions.map (.ofText ·.2)

theorem shows_positions : List.Forall₂ AnchorTable.empty.Shows (here.zip there) positions := by
  have hoperand {x : String} (h : ∃ items, Sql.Reads x items ∧ Sql.Atomic items) :
      AnchorTable.empty.render (.ofText x) = .ok x ∧ Sql.IsOperand x :=
    ⟨AnchorTable.render_ofText x, h⟩
  refine .cons ⟨hoperand ?_, hoperand ?_⟩ (.cons ⟨hoperand ?_, hoperand ?_⟩ .nil)
  all_goals exact ⟨_, ⟨_, rfl, ⟨rfl, rfl⟩, rfl⟩, by decide⟩

/-- Two positions differ as much with `ANY` as directly. -/
theorem value_any_ne_positions : ∃ direct anyRow f,
    AnchorTable.empty.ReadsAs (Predicate.compound here (.comparison .ne) there false).sql direct
      ∧ quantifiedCondition here .ne .any ⟨there, none⟩ = .ok f
      ∧ AnchorTable.empty.ReadsAs f anyRow
      ∧ ∀ truth, anyRow.value truth = direct.value truth := by
  have hlength : here.length = there.length := rfl
  have hkept : ∀ pair ∈ here.zip there, Predicate.isRedundant pair.1 pair.2 = false := by decide
  obtain ⟨first, rest, _, _, -, -, hdirect, hany, -, hvalue⟩ :=
    Sql.value_quantified_eq_iff hlength (by decide) hkept shows_positions .ne false
  obtain ⟨f, hf, hreads⟩ := hany .any (by decide)
  exact ⟨_, _, f, hdirect, hf, hreads, fun truth => (hvalue truth).1.2 (.inl rfl)⟩

/-- What is known of two positions on one vertical line. -/
def sameColumn (text : String) : Option Bool :=
  some (text ∈ ["[w].[Position_X] = [v].[Position_X]", "[w].[Position_Y] <> [v].[Position_Y]"])

/-- Two positions on one vertical line are equal with `ANY`, and equal with `ALL` of such rows, but
they are not equal directly. -/
theorem value_quantified_positions : ∃ direct anyRow allRows f g,
    AnchorTable.empty.ReadsAs (Predicate.compound here (.comparison .eq) there false).sql direct
      ∧ quantifiedCondition here .eq .any ⟨there, none⟩ = .ok f
      ∧ AnchorTable.empty.ReadsAs f anyRow
      ∧ quantifiedCondition here .eq .all ⟨there, none⟩ = .ok g
      ∧ AnchorTable.empty.ReadsAs g allRows
      ∧ direct.value sameColumn = some false
      ∧ anyRow.value sameColumn = some true
      ∧ allRows.value sameColumn = some false := by
  refine ⟨.and (.operand "[w].[Position_X] = [v].[Position_X]")
      (.operand "[w].[Position_Y] = [v].[Position_Y]"),
    .or (.operand "[w].[Position_X] = [v].[Position_X]")
      (.operand "[w].[Position_Y] = [v].[Position_Y]"),
    .and (.operand "[w].[Position_X] <> [v].[Position_X]")
      (.operand "[w].[Position_Y] <> [v].[Position_Y]"), _, _,
    ⟨_, rfl, ?_⟩, rfl, ⟨_, rfl, ?_⟩, rfl, ⟨_, rfl, ?_⟩, ?_⟩
  all_goals decide +kernel

end EntitySql.Sample
