import EntitySql.Proofs.Sql.Connected
import EntitySql.Proofs.Sql.Items

/-!
# Conjuncts of a condition

A condition in parentheses with `AND` behind it is a conjunct of the whole only if no `OR` stands
outside in what comes next: `AND` connects more tightly. `isConjunct_conjoined` says that this is
all that can go wrong, as long as no comment begins.
-/

namespace EntitySql.Sql

/-! ## Conjuncts -/

/-- A text without comments has no item `OR` if it has no `OR` outside. -/
theorem OrFree.exists_reads {text : String} (h : OrFree (textSymbols text))
    (hfree : isCommentFree text = true) :
    ∃ items, Reads text items ∧ ∀ item ∈ items, item.isWord "OR" = false := by
  obtain ⟨items, hreads, -, hitems⟩ := OnlyWords.exists_reads h hfree
  refine ⟨items, hreads, fun item hitem => ?_⟩
  cases item with
  | word chars => simpa [Item.isAdmitted, isNotOr] using hitems _ hitem
  | mark | group => rfl

/-- Both texts are conditions, and the second one only holds if the first one does. -/
def IsConjunct (part text : String) : Prop :=
  ∃ p c, read? part = some p ∧ read? text = some c
    ∧ ∀ truth, c.value truth = some true → p.value truth = some true

theorem cut_or_of_forall {items : List Item} (h : ∀ item ∈ items, item.isWord "OR" = false) :
    cut "OR" items = (items, []) := by
  suffices hfrom : ∀ pending, cutFrom "OR" pending items = (items, []) from hfrom _
  induction items with
  | nil => exact fun _ => rfl
  | cons item items ih =>
    intro pending
    obtain ⟨hitem, hitems⟩ := List.forall_mem_cons.1 h
    obtain ⟨next, hnext⟩ : ∃ next, pending.next? "OR" item = some next := by
      unfold Pending.next?
      simp only [hitem, Bool.false_eq_true, if_false]
      split_ifs <;> exact ⟨_, rfl⟩
    rw [cutFrom, hnext]
    dsimp only
    rw [ih hitems]

/-- A chain of conjuncts only holds if the first one does. -/
theorem value_foldl_and {truth : String → Option Bool} {first : Condition} (rest : List (List Item))
    (h : (rest.foldl (fun condition items => .and condition (Condition.ofOperand items)) first).value
      truth = some true) : first.value truth = some true := by
  induction rest generalizing first with
  | nil => exact h
  | cons items rest ih => exact (Condition.both_eq_true.1 (ih h)).1

/-- The reading of a group with `AND` behind it, and no `OR` behind that. -/
theorem ofItems_group_and {text : List Char} {condition : Condition} {items : List Item}
    (h : ∀ item ∈ items, item.isWord "OR" = false) {truth : String → Option Bool}
    (hvalue : (Condition.ofItems ([.group text condition] ++ .mark ' '
      :: ([.word ['A', 'N', 'D']] ++ .mark ' ' :: items))).value truth = some true) :
    condition.value truth = some true := by
  have hall : ∀ item ∈ [Item.group text condition] ++ .mark ' '
      :: ([.word ['A', 'N', 'D']] ++ .mark ' ' :: items), item.isWord "OR" = false := by
    simp only [List.singleton_append, List.forall_mem_cons]
    exact ⟨rfl, rfl, rfl, rfl, h⟩
  rw [Condition.ofItems, cut_or_of_forall hall] at hvalue
  exact value_foldl_and _ hvalue

/-- What stands in the parentheses does not matter. -/
theorem orFree_conjoined_iff {w p : String} (hw : Shifts 0 0 (textSymbols w)) :
    OrFree (textSymbols ("(" ++ w ++ ") AND " ++ p)) ↔ OrFree (textSymbols p) := by
  have hopens : Opens isNotOr (textSymbols "(") := by decide
  have hguard : EndsWord isNotOr (textSymbols ("(" ++ w ++ ") AND ")) := by
    rw [textSymbols_append, textSymbols_append]
    exact (hopens.append hw).close (by decide)
  rw [textSymbols_append _ p]
  exact hguard.onlyWords_append_iff

/-- A condition in parentheses is a conjunct if no `OR` stands outside behind it. -/
theorem isConjunct_conjoined {w p : String} (hw : Shifts 0 0 (textSymbols w))
    (hp : OrFree (textSymbols p)) (hfree : isCommentFree ("(" ++ w ++ ") AND " ++ p) = true) :
    IsConjunct w ("(" ++ w ++ ") AND " ++ p) := by
  have htext : "(" ++ w ++ ") AND " ++ p = ("(" ++ w ++ ")") ++ " " ++ ("AND" ++ " " ++ p) := by
    simp only [String.append_assoc]
    rfl
  have hgroup : Shifts 0 0 (textSymbols ("(" ++ w ++ ")")) :=
    ((show Shifts 0 1 (textSymbols "(") by decide).text (hw.lift 1)).text
      (show Shifts 1 0 (textSymbols ")") by decide)
  -- no comment begins in the two conditions
  rw [htext] at hfree
  obtain ⟨hbefore, hafter⟩ := isCommentFree_of_separated hgroup.nesting hfree
  have hpfree := (isCommentFree_of_separated (by decide) hafter).2
  have hwfree : isCommentFree w = true := by
    rw [isCommentFree, String.toList_append, String.toList_append, List.append_assoc] at hbefore
    change commentFreeFrom .plain (some '(') (w.toList ++ _) = true at hbefore
    have hinside := (commentFreeFrom_of_append (n := ⟨.plain, 0⟩) hw.nesting hbefore).1
    exact commentFreeFrom_of_some (by simp [commentBegun]) hinside
  obtain ⟨items, hreads, hitems⟩ := hp.exists_reads hpfree
  obtain ⟨inside, hinside, -⟩ := exists_reads_of_closesFrom (closesFrom_of_shifts hw) hwfree
  have hword : Reads "AND" [.word ['A', 'N', 'D']] :=
    ⟨⟨.text .plain, ['D', 'N', 'A'], [], []⟩, by decide, ⟨rfl, rfl⟩, rfl⟩
  have hwhole := hinside.group.append (hword.append hreads)
  rw [htext]
  refine ⟨_, _, hinside.read?, hwhole.read?, fun truth hvalue => ?_⟩
  exact ofItems_group_and hitems hvalue

end EntitySql.Sql
