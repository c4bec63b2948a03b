import EntitySql.Proofs.Sql.Connected
import EntitySql.Proofs.Sql.Render

/-!
# Comparisons of columns

A predicate on composite values compares columns in pairs. Its text is made of the texts of the
columns (`Predicate.render_columnwise_eq_ok`). Where these are operands, it is read as the
comparisons of the pairs with its connective between them (`Predicate.exists_readsAs_columnwise`).
-/

namespace EntitySql

/-- Whether the operator compares composite values column by column. -/
def BooleanOperator.comparesColumns : BooleanOperator → Bool
  | .comparison _ | .is | .isNot => true
  | .in | .notIn | .match | .notMatch | .and | .or => false

namespace Sql

open Condition (connected)

/-! ## Predicates on pairs of columns -/

namespace Predicate

/-- The comparisons of some pairs of columns. -/
def columnwise (connective : Connective) (op : BooleanOperator) (pairs : List (Fragment × Fragment))
    (grouped : Bool) : Predicate :=
  ⟨connective, pairs.map fun (l, r) => ⟨l, op, r⟩, grouped⟩

/-- The pairs of columns of two values that are compared. -/
def keptPairs (lhs rhs : Columns) : List (Fragment × Fragment) :=
  (lhs.zip rhs).filter fun (l, r) => !isRedundant l r

/-- Comparisons of columns are made one by one, and connected as the operator asks for. -/
theorem compound_eq_columnwise (lhs : Columns) (op : BooleanOperator) (rhs : Columns)
    (parenthesized : Bool) :
    compound lhs op rhs parenthesized
      = columnwise (if op.isNegative then .or else .and) op (keptPairs lhs rhs)
        (if (keptPairs lhs rhs).length = 1 then parenthesized else true) :=
  rfl

/-- For `ALL`, a row is a counterexample if all columns are. -/
theorem quantified_all_eq_columnwise (pairs : List (Fragment × Fragment)) (op : ComparisonOperator) :
    quantified pairs op .all = columnwise .and (.comparison op.negate) pairs false :=
  rfl

/-- For `ANY`, a row is an example if one column is. -/
theorem quantified_any_eq_columnwise (pairs : List (Fragment × Fragment)) (op : ComparisonOperator) :
    quantified pairs op .any = columnwise .or (.comparison op) pairs (1 < pairs.length) :=
  rfl

end Predicate

/-! ## Texts -/

namespace AnchorTable

variable {t : AnchorTable}

/-- The fragment is read as this condition. -/
def ReadsAs (t : AnchorTable) (f : Fragment) (condition : Condition) : Prop :=
  ∃ text, t.render f = .ok text ∧ read? text = some condition

/-- The columns have these texts, and both are operands. -/
def Shows (t : AnchorTable) (columns : Fragment × Fragment) (texts : String × String) : Prop :=
  (t.render columns.1 = .ok texts.1 ∧ IsOperand texts.1)
    ∧ t.render columns.2 = .ok texts.2 ∧ IsOperand texts.2

theorem Shows.renders {columns : Fragment × Fragment} {texts : String × String}
    (h : t.Shows columns texts) : t.Renders columns texts :=
  ⟨h.1.1, h.2.1⟩

end AnchorTable

namespace Predicate

variable {t : AnchorTable} {connective : Connective} {op : BooleanOperator} {grouped : Bool}
  {pairs : List (Fragment × Fragment)} {texts : List (String × String)} {text : String}

/-- The text of comparisons of columns. -/
def columnwiseText (connective : Connective) (op : BooleanOperator) (texts : List (String × String))
    (grouped : Bool) : String :=
  let joined := connective.sql.intercalate (texts.map (comparisonText op))
  if grouped then "(" ++ joined ++ ")" else joined

/-- Comparisons are rendered pair by pair. -/
theorem renders_comparisons_iff {xs : List String} :
    List.Forall₂ (t.render · = .ok ·)
      ((columnwise connective op pairs grouped).comparisons.map (·.sql))
        xs ↔
      ∃ texts, List.Forall₂ t.Renders pairs texts ∧ xs = texts.map (comparisonText op) := by
  rw [columnwise, List.map_map, List.forall₂_map_left_iff]
  constructor
  · intro hxs
    induction hxs with
    | nil => exact ⟨[], .nil, rfl⟩
    | cons hx _ ih =>
      obtain ⟨x, hpair, rfl⟩ := AnchorTable.render_comparison_eq_ok.1 hx
      obtain ⟨texts, htexts, rfl⟩ := ih
      exact ⟨x :: texts, .cons hpair htexts, rfl⟩
  · rintro ⟨texts, htexts, rfl⟩
    refine List.forall₂_map_right_iff.2 (htexts.imp fun pair x hpair => ?_)
    exact AnchorTable.render_comparison_eq_ok.2 ⟨x, hpair, rfl⟩

/-- The text of comparisons is that of the pairs, with the connective between them. -/
theorem render_columnwise_eq_ok (hne : pairs ≠ []) :
    t.render (columnwise connective op pairs grouped).sql = .ok text ↔
      ∃ texts, List.Forall₂ t.Renders pairs texts
        ∧ text = columnwiseText connective op texts grouped := by
  have hjoin (text : String) : t.render (Fragment.join connective.sql
        ((columnwise connective op pairs grouped).comparisons.map (·.sql))) = .ok text ↔
      ∃ texts, List.Forall₂ t.Renders pairs texts
        ∧ text = connective.sql.intercalate (texts.map (comparisonText op)) := by
    simp only [AnchorTable.render_join_eq_ok, renders_comparisons_iff]
    constructor
    · rintro ⟨_, ⟨texts, htexts, rfl⟩, rfl⟩
      exact ⟨texts, htexts, rfl⟩
    · rintro ⟨texts, htexts, rfl⟩
      exact ⟨_, ⟨texts, htexts, rfl⟩, rfl⟩
  rw [sql, if_neg (by simpa [columnwise] using hne)]
  cases grouped with
  | false => exact hjoin text
  | true =>
    refine AnchorTable.render_parenthesized_eq_ok.trans ⟨?_, ?_⟩
    · rintro ⟨x, hx, rfl⟩
      obtain ⟨texts, htexts, rfl⟩ := (hjoin x).1 hx
      exact ⟨texts, htexts, rfl⟩
    · rintro ⟨texts, htexts, rfl⟩
      exact ⟨_, (hjoin _).2 ⟨texts, htexts, rfl⟩, rfl⟩

end Predicate

/-! ## Reading -/

/-- A comparison of operands is one operand of a connective. -/
theorem isOperand_comparisonText {op : BooleanOperator} {x y : String}
    (hop : op.comparesColumns = true) (hx : IsOperand x) (hy : IsOperand y) :
    IsOperand (comparisonText op (x, y)) := by
  obtain ⟨items, hreads, hatomic⟩ := hx
  obtain ⟨items', hreads', hatomic'⟩ := hy
  have hmarks : ∃ marks, Reads op.sql marks ∧ Atomic (.mark ' ' :: marks) := by
    cases op with
    | comparison op => cases op <;> exact ⟨_, ⟨_, rfl, ⟨rfl, rfl⟩, rfl⟩, by decide⟩
    | is | isNot => exact ⟨_, ⟨_, rfl, ⟨rfl, rfl⟩, rfl⟩, by decide⟩
    | «in» | notIn | «match» | notMatch | and | or => cases hop
  obtain ⟨marks, hmarks, hplain⟩ := hmarks
  have hmark : Atomic [.mark ' '] := by decide
  refine ⟨_, ?_, (hatomic.append hplain).append (hmark.append hatomic')⟩
  have htext : comparisonText op (x, y) = x ++ " " ++ op.sql ++ " " ++ y := by
    apply String.toList_injective
    simp [comparisonText]
  rw [htext]
  exact (hreads.append hmarks).append hreads'

namespace Predicate

variable {t : AnchorTable} {op : BooleanOperator} {pairs : List (Fragment × Fragment)}
  {texts : List (String × String)}

/-- Comparisons of what is shown are operands of a connective. -/
theorem isOperand_of_shows (hop : op.comparesColumns = true) (h : List.Forall₂ t.Shows pairs texts) :
    ∀ x ∈ texts.map (comparisonText op), IsOperand x := by
  induction h with
  | nil => simp
  | cons hpair _ ih =>
    exact List.forall_mem_cons.2 ⟨isOperand_comparisonText hop hpair.1.2 hpair.2.2, ih⟩

/-- Comparisons of columns are read as what they are, with the connective between them. -/
theorem exists_readsAs_columnwise (hop : op.comparesColumns = true)
    (hpairs : List.Forall₂ t.Shows pairs texts) (hne : pairs ≠ []) :
    ∃ first rest,
      List.Forall₂ (fun pair condition => read? (comparisonText op pair) = some condition) texts
        (first :: rest)
      ∧ ∀ connective grouped,
        t.ReadsAs (columnwise connective op pairs grouped).sql (connected connective first rest) := by
  have hoperand := isOperand_of_shows hop hpairs
  have hrender (connective : Connective) (grouped : Bool) :
      t.render (columnwise connective op pairs grouped).sql
        = .ok (columnwiseText connective op texts grouped) :=
    (render_columnwise_eq_ok hne).2 ⟨texts, hpairs.imp fun _ _ h => h.renders, rfl⟩
  cases texts with
  | nil => exact absurd (List.forall₂_nil_right_iff.1 hpairs) hne
  | cons text texts =>
    obtain ⟨hfirst, hothers⟩ := List.forall_mem_cons.1 hoperand
    obtain ⟨first, rest, hread, hreads, hconnected⟩ := read?_connectedText hfirst hothers
    refine ⟨first, rest, .cons hread (List.forall₂_map_left_iff.1 hreads), ?_⟩
    intro connective grouped
    obtain ⟨hclosed, hconnected⟩ := hconnected connective
    rw [connectedText_eq_intercalate] at hclosed hconnected
    refine ⟨_, hrender connective grouped, ?_⟩
    cases grouped with
    | false => exact hconnected
    | true => exact (read?_parenthesized hclosed).2.trans hconnected

end Predicate

end Sql

end EntitySql
