import EntitySql.Proofs.Sql.Columnwise

/-!
# The polarity of composite comparisons

Two composite values are compared column by column, except for pairs of columns that add nothing.
`Predicate.compound_polarity` says what becomes of the other pairs, for every operator that compares
columns: their comparisons are written in order, with one connective between them, and in
three-valued logic the whole has the value that the connective gives to all of them. For `<>` and
`IS NOT` this is a disjunction, and for the other operators a conjunction. So `<>` is the negation
of `=`, and `IS NOT` that of `IS`, on values of any width.
-/

namespace EntitySql

/-- How an operator connects the comparisons of the columns of two values. -/
def BooleanOperator.polarity : BooleanOperator → Sql.Connective
  | .comparison .ne | .isNot => .or
  | _ => .and

/-- Where columns are compared, the operators that hold if some column differs are the two that
connect with `OR`. -/
theorem BooleanOperator.polarity_of_comparesColumns {op : BooleanOperator}
    (h : op.comparesColumns = true) :
    (if op.isNegative then Sql.Connective.or else .and) = op.polarity := by
  cases op with
  | comparison op => cases op <;> rfl
  | is | isNot => rfl
  | «in» | notIn | «match» | notMatch | and | or => cases h

namespace Sql

/-! ## Several values -/

namespace Connective

/-- The value of several conditions together in three-valued logic: one of them can decide, and
otherwise all of them have to be known. -/
def ofAll (connective : Connective) (values : List (Option Bool)) : Option Bool :=
  if some connective.deciding ∈ values then some connective.deciding
  else if none ∈ values then none
  else some !connective.deciding

/-- Values are combined to the deciding one if it is among them. -/
theorem combineAll_eq_ofAll (connective : Connective) (first : Option Bool)
    (rest : List (Option Bool)) :
    connective.combineAll first rest = connective.ofAll (first :: rest) := by
  rw [ofAll]
  split_ifs with hdecided hunknown
  · exact combineAll_eq_deciding.2 ⟨_, hdecided, rfl⟩
  · -- neither of the two values that are known
    have hnot : connective.combineAll first rest ≠ some connective.deciding := by
      intro heq
      obtain ⟨_, hmem, rfl⟩ := combineAll_eq_deciding.1 heq
      exact hdecided hmem
    have hnot' : connective.combineAll first rest ≠ some !connective.deciding := by
      intro heq
      cases combineAll_eq_other.1 heq none hunknown
    rcases hvalue : connective.combineAll first rest with _ | value
    · rfl
    · rw [hvalue] at hnot hnot'
      rcases Bool.eq_or_eq_not value connective.deciding with rfl | rfl
      · exact absurd rfl hnot
      · exact absurd rfl hnot'
  · refine combineAll_eq_other.2 fun a ha => ?_
    rcases a with _ | value
    · exact absurd ha hunknown
    · rcases Bool.eq_or_eq_not value connective.deciding with rfl | rfl
      · exact absurd ha hdecided
      · rfl

end Connective

/-! ## Predicates -/

namespace Predicate

variable {connective : Connective} {op : BooleanOperator} {pairs : List (Fragment × Fragment)}
  {grouped : Bool}

/-- What is known of a predicate, by what is known of each of its comparisons. -/
def value (truth : Comparison → Option Bool) (predicate : Predicate) : Option Bool :=
  match predicate.comparisons.map truth with
  | [] => some true
  | first :: rest => predicate.connective.combineAll first rest

/-- What is known of each of the comparisons of some pairs. -/
def pairValues (truth : Comparison → Option Bool) (op : BooleanOperator)
    (pairs : List (Fragment × Fragment)) : List (Option Bool) :=
  pairs.map fun pair => truth ⟨pair.1, op, pair.2⟩

/-- The value of comparisons made column by column. -/
theorem value_columnwise (hne : pairs ≠ []) (truth : Comparison → Option Bool) :
    (columnwise connective op pairs grouped).value truth
      = connective.ofAll (pairValues truth op pairs) := by
  have hvalues : (columnwise connective op pairs grouped).comparisons.map truth
      = pairValues truth op pairs :=
    List.map_map ..
  rw [value, hvalues]
  cases pairs with
  | nil => exact absurd rfl hne
  | cons pair pairs => exact Connective.combineAll_eq_ofAll ..

/-- Comparisons that are opposite one by one are opposite when connected in dual ways. -/
theorem value_columnwise_of_opposite {op' : BooleanOperator} {grouped' : Bool} (hne : pairs ≠ [])
    {truth : Comparison → Option Bool}
    (h : ∀ pair ∈ pairs, truth ⟨pair.1, op', pair.2⟩ = (truth ⟨pair.1, op, pair.2⟩).map (!·)) :
    (columnwise connective op' pairs grouped').value truth
      = ((columnwise connective.dual op pairs grouped).value truth).map (!·) := by
  have hvalues : pairValues truth op' pairs = (pairValues truth op pairs).map (·.map (!·)) := by
    rw [pairValues, pairValues, List.map_map]
    exact List.map_congr_left h
  rw [value_columnwise hne, value_columnwise hne, hvalues]
  cases pairs with
  | nil => exact absurd rfl hne
  | cons pair pairs =>
    exact (Connective.combineAll_eq_ofAll ..).symm.trans
      ((Connective.combineAll_map_not ..).trans
        (congrArg (·.map (!·)) (Connective.combineAll_eq_ofAll ..)))

/-- The value of a text that is read as a condition. -/
def textValue (truth : String → Option Bool) (text : String) : Option Bool :=
  (read? text).bind (·.value truth)

/-- The values of the texts are those of the conditions that they are read as. -/
theorem textValues_eq {texts : List (String × String)} {conditions : List Condition}
    (h : List.Forall₂ (fun pair condition => read? (comparisonText op pair) = some condition) texts
      conditions) (truth : String → Option Bool) :
    (texts.map fun x => textValue truth (comparisonText op x))
      = conditions.map (·.value truth) := by
  induction h with
  | nil => rfl
  | cons hread _ ih =>
    rw [List.map_cons, List.map_cons, ih, textValue, hread]
    rfl

/-- The predicate connects the comparisons of these pairs. -/
structure Connects (predicate : Predicate) (connective : Connective) (op : BooleanOperator)
    (pairs : List (Fragment × Fragment)) (grouped : Bool) : Prop where
  /-- Each pair is compared once, in order. -/
  comparisons : predicate.comparisons = pairs.map fun pair => ⟨pair.1, op, pair.2⟩
  /-- The text consists of the texts of the comparisons, with the connective between them, and with
  one pair of parentheses around the whole if it is grouped. -/
  text : ∀ (t : AnchorTable) (text : String), t.render predicate.sql = .ok text ↔
    ∃ texts, List.Forall₂ t.Renders pairs texts ∧ text = columnwiseText connective op texts grouped
  value : ∀ truth, predicate.value truth = connective.ofAll (pairValues truth op pairs)
  /-- If the columns are operands, the text is read in this way. -/
  reading : ∀ (t : AnchorTable) (texts : List (String × String)), List.Forall₂ t.Shows pairs texts →
    ∃ condition, t.ReadsAs predicate.sql condition ∧ ∀ truth, condition.value truth
      = connective.ofAll (texts.map fun x => textValue truth (comparisonText op x))

/-- Comparisons made column by column are read with their connective. -/
theorem connects_columnwise (hop : op.comparesColumns = true) (hne : pairs ≠ []) :
    (columnwise connective op pairs grouped).Connects connective op pairs grouped := by
  refine ⟨rfl, fun t text => render_columnwise_eq_ok hne, value_columnwise hne, ?_⟩
  intro t texts htexts
  obtain ⟨first, rest, hcomponents, hreads⟩ := exists_readsAs_columnwise hop htexts hne
  refine ⟨_, hreads connective grouped, fun truth => ?_⟩
  rw [Condition.value_connected, Connective.combineAll_eq_ofAll, textValues_eq hcomponents]
  rfl

/-- Several comparisons are grouped, and a single one if the source had parentheses around it. -/
theorem compound_eq_polarity {lhs rhs : Columns} (hop : op.comparesColumns = true)
    (hne : keptPairs lhs rhs ≠ []) (parenthesized : Bool) :
    compound lhs op rhs parenthesized = columnwise op.polarity op (keptPairs lhs rhs)
      (1 < (keptPairs lhs rhs).length || parenthesized) := by
  have hpositive := List.length_pos_of_ne_nil hne
  rw [compound_eq_columnwise, BooleanOperator.polarity_of_comparesColumns hop]
  congr 1
  split_ifs with hsingle
  · simp [hsingle]
  · have hseveral : 1 < (keptPairs lhs rhs).length := by omega
    simp [hseveral]

/-- A comparison of two values is true if no pair of columns counts, and otherwise connects the
comparisons of those that do, by the polarity of the operator. Where pairs are unequal exactly if
they are not equal, so are the values. -/
theorem compound_polarity (lhs rhs : Columns) (parenthesized : Bool) :
    (∀ op : BooleanOperator, op.comparesColumns = true →
      ((∀ pair ∈ lhs.zip rhs, isRedundant pair.1 pair.2 = true) →
        (compound lhs op rhs parenthesized).sql = "TRUE")
      ∧ (keptPairs lhs rhs ≠ [] →
        (compound lhs op rhs parenthesized).Connects op.polarity op (keptPairs lhs rhs)
          (1 < (keptPairs lhs rhs).length || parenthesized)))
    ∧ ∀ ops ∈ [(.comparison .eq, .comparison .ne), (BooleanOperator.is, BooleanOperator.isNot)],
      keptPairs lhs rhs ≠ [] → ∀ truth : Comparison → Option Bool,
      (∀ pair ∈ keptPairs lhs rhs,
        truth ⟨pair.1, ops.2, pair.2⟩ = (truth ⟨pair.1, ops.1, pair.2⟩).map (!·)) →
      (compound lhs ops.2 rhs parenthesized).value truth
        = ((compound lhs ops.1 rhs parenthesized).value truth).map (!·) := by
  constructor
  · intro op hop
    refine ⟨fun hredundant => ?_, fun hne => ?_⟩
    · have hnone : keptPairs lhs rhs = [] :=
        List.filter_eq_nil_iff.2 fun pair hpair => by simpa using hredundant pair hpair
      rw [compound_eq_columnwise, hnone]
      rfl
    · rw [compound_eq_polarity hop hne]
      exact connects_columnwise hop hne
  · intro ops hops hne truth hopposite
    simp only [List.mem_cons, List.not_mem_nil, or_false] at hops
    rcases hops with rfl | rfl
    · rw [compound_eq_polarity rfl hne, compound_eq_polarity rfl hne]
      exact value_columnwise_of_opposite hne hopposite
    · rw [compound_eq_polarity rfl hne, compound_eq_polarity rfl hne]
      exact value_columnwise_of_opposite hne hopposite

end Predicate

end Sql

namespace Sample

open Sql (AnchorTable Columns Comparison Fragment Predicate)

/-- A composite value with the relationship class of a parent in it. -/
def placed : Columns :=
  ["[e].[Code]", "[element].[ParentRelECClassId]", "[e].[Level]"]

/-- What it is compared with. -/
def unplaced : Columns :=
  ["[f].[Code]", "(NULL)", "[f].[Level]"]

/-- What is known of comparisons if it is known which columns are equal. -/
def truthOf (equal : Fragment → Fragment → Option Bool) (c : Comparison) : Option Bool :=
  if c.op = .comparison .ne then (equal c.lhs c.rhs).map (!·) else equal c.lhs c.rhs

/-- The pair that adds nothing is left out, and two values are unequal if they are not equal. -/
theorem unequal_placed :
    AnchorTable.empty.render (Predicate.compound placed (.comparison .ne) unplaced false).sql
        = .ok "([e].[Code] <> [f].[Code] OR [e].[Level] <> [f].[Level])"
      ∧ ∀ equal,
        (Predicate.compound placed (.comparison .ne) unplaced false).value (truthOf equal)
          = ((Predicate.compound placed (.comparison .eq) unplaced false).value
            (truthOf equal)).map (!·) := by
  have hkept : Predicate.keptPairs placed unplaced = [(.ofText "[e].[Code]", .ofText "[f].[Code]"),
      (.ofText "[e].[Level]", .ofText "[f].[Level]")] := by
    decide
  have hne : Predicate.keptPairs placed unplaced ≠ [] := by
    rw [hkept]
    exact List.cons_ne_nil _ _
  obtain ⟨hconnects, hopposite⟩ := Predicate.compound_polarity placed unplaced false
  constructor
  · have htext := ((hconnects (.comparison .ne) rfl).2 hne).text AnchorTable.empty
    refine (htext _).2 ⟨[("[e].[Code]", "[f].[Code]"), ("[e].[Level]", "[f].[Level]")], ?_, ?_⟩
    · rw [hkept]
      exact .cons ⟨rfl, rfl⟩ (.cons ⟨rfl, rfl⟩ .nil)
    · rw [hkept]
      rfl
  · exact fun equal => hopposite _ (List.mem_cons_self ..) hne (truthOf equal) fun _ _ => rfl

end Sample

end EntitySql
