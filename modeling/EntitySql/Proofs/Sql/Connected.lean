import EntitySql.Proofs.Sql.Reading
import EntitySql.Sql.Predicate
import Mathlib.Data.List.Basic

/-!
# Reading texts with a connective between them

A text `IsOperand` if it is closed and nothing in it connects conditions, outside of parentheses,
quotes and brackets. Operands with one connective between them are read as the conditions that they
are, connected from the left (`read?_connectedText`). What is known of such a condition then follows
from what is known of the operands: see `Condition.value_connected_eq_deciding` and
`Condition.value_connected_eq_other`.
-/

namespace EntitySql.Sql

/-! ## Connected conditions -/

namespace Connective

/-- The connective as a word. -/
def word : Connective → String
  | .and => "AND"
  | .or => "OR"

/-- Two conditions with the connective between them. -/
def condition : Connective → Condition → Condition → Condition
  | .and => .and
  | .or => .or

/-- What is known of two conditions with the connective between them, by what is known of both. -/
def combine : Connective → Option Bool → Option Bool → Option Bool
  | .and => Condition.both
  | .or => Condition.either

/-- The other connective. -/
def dual : Connective → Connective
  | .and => .or
  | .or => .and

/-- The value of a condition that decides all others with the connective between them. -/
def deciding : Connective → Bool
  | .and => false
  | .or => true

end Connective

namespace Condition

theorem either_eq_true {a b : Option Bool} :
    either a b = some true ↔ a = some true ∨ b = some true := by
  rcases a with _ | _ | _ <;> rcases b with _ | _ | _ <;> simp [either]

end Condition

namespace Connective

variable {connective : Connective} {first : Option Bool} {rest : List (Option Bool)}

/-- One deciding value decides. -/
theorem combine_eq_deciding {a b : Option Bool} :
    connective.combine a b = some connective.deciding
      ↔ a = some connective.deciding ∨ b = some connective.deciding := by
  cases connective <;> rcases a with _ | _ | _ <;> rcases b with _ | _ | _ <;> decide

/-- The other value is the result only if both sides have it. -/
theorem combine_eq_other {a b : Option Bool} :
    connective.combine a b = some !connective.deciding
      ↔ a = some (!connective.deciding) ∧ b = some !connective.deciding := by
  cases connective <;> rcases a with _ | _ | _ <;> rcases b with _ | _ | _ <;> decide

/-- Negating both sides is negating the result of the other connective. -/
theorem combine_map_not (a b : Option Bool) :
    connective.combine (a.map (!·)) (b.map (!·)) = (connective.dual.combine a b).map (!·) := by
  cases connective <;> rcases a with _ | _ | _ <;> rcases b with _ | _ | _ <;> rfl

/-- What is known of several conditions with the connective between them, by what is known of
each. -/
def combineAll (connective : Connective) (first : Option Bool) (rest : List (Option Bool)) :
    Option Bool :=
  rest.foldl connective.combine first

/-- Several conditions are decided by any of them with the deciding value. -/
theorem combineAll_eq_deciding :
    connective.combineAll first rest = some connective.deciding
      ↔ ∃ a ∈ first :: rest, a = some connective.deciding := by
  induction rest generalizing first with
  | nil => simp [combineAll, eq_comm]
  | cons next rest ih =>
    show connective.combineAll (connective.combine first next) rest = _ ↔ _
    rw [ih]
    simp only [List.mem_cons, exists_eq_or_imp, combine_eq_deciding, or_assoc]

/-- Several conditions have the other value only if all of them have it. -/
theorem combineAll_eq_other :
    connective.combineAll first rest = some (!connective.deciding)
      ↔ ∀ a ∈ first :: rest, a = some !connective.deciding := by
  induction rest generalizing first with
  | nil => simp [combineAll]
  | cons next rest ih =>
    show connective.combineAll (connective.combine first next) rest = _ ↔ _
    rw [ih]
    simp only [List.forall_mem_cons, combine_eq_other, and_assoc]

/-- Values that are opposite one by one are opposite when combined in dual ways. -/
theorem combineAll_map_not (first : Option Bool) (rest : List (Option Bool)) :
    connective.combineAll (first.map (!·)) (rest.map (·.map (!·)))
      = (connective.dual.combineAll first rest).map (!·) := by
  induction rest generalizing first with
  | nil => rfl
  | cons next rest ih =>
    show connective.combineAll (connective.combine _ _) _ = _
    rw [combine_map_not, ih]
    rfl

end Connective

namespace Condition

/-- Conditions with a connective between them. -/
def connected (connective : Connective) (first : Condition) (rest : List Condition) : Condition :=
  rest.foldl connective.condition first

variable {truth : String → Option Bool} {connective : Connective} {first : Condition}
  {rest : List Condition}

/-- The value of a condition comes from those of its sides. -/
theorem value_condition (lhs rhs : Condition) :
    (connective.condition lhs rhs).value truth
      = connective.combine (lhs.value truth) (rhs.value truth) := by
  cases connective <;> rfl

/-- The value of connected conditions comes from all of theirs. -/
theorem value_connected (connective : Connective) (first : Condition) (rest : List Condition) :
    (connected connective first rest).value truth
      = connective.combineAll (first.value truth) (rest.map (·.value truth)) := by
  induction rest generalizing first with
  | nil => rfl
  | cons next rest ih =>
    show (connected connective (connective.condition first next) rest).value truth = _
    rw [ih, value_condition]
    rfl

/-- Conditions are decided by any of them with the deciding value. -/
theorem value_connected_eq_deciding (connective : Connective) :
    (connected connective first rest).value truth = some connective.deciding
      ↔ ∃ condition ∈ first :: rest, condition.value truth = some connective.deciding := by
  rw [value_connected, Connective.combineAll_eq_deciding, ← List.map_cons (f := value truth)]
  simp only [List.mem_map, exists_exists_and_eq_and]

/-- Conditions have the other value only if all of them have it. -/
theorem value_connected_eq_other (connective : Connective) :
    (connected connective first rest).value truth = some (!connective.deciding)
      ↔ ∀ condition ∈ first :: rest, condition.value truth = some !connective.deciding := by
  rw [value_connected, Connective.combineAll_eq_other, ← List.map_cons (f := value truth),
    List.forall_mem_map]

/-- Conditions that are opposite one by one are opposite when connected in dual ways. -/
theorem value_connected_of_opposite {first' : Condition} {rest' : List Condition}
    (h : first.value truth = (first'.value truth).map (!·))
    (hrest : List.Forall₂ (fun c c' => c.value truth = (c'.value truth).map (!·)) rest rest') :
    (connected connective first rest).value truth
      = ((connected connective.dual first' rest').value truth).map (!·) := by
  have hvalues : rest.map (·.value truth) = (rest'.map (·.value truth)).map (·.map (!·)) := by
    induction hrest with
    | nil => rfl
    | cons hnext _ ih => rw [List.map_cons, hnext, ih]; rfl
  rw [value_connected, value_connected, h, hvalues, Connective.combineAll_map_not]

end Condition

/-! ## Operands -/

/-- Whether an item can connect conditions, or change which words connect them. -/
def Item.isStructural (item : Item) : Bool :=
  ["AND", "OR", "CASE", "END", "BETWEEN"].any (item.isWord ·)

/-- Nothing among the items connects conditions. -/
def Atomic (items : List Item) : Prop :=
  ∀ item ∈ items, item.isStructural = false

instance decidableAtomic (items : List Item) : Decidable (Atomic items) :=
  inferInstanceAs (Decidable (∀ item ∈ items, _))

/-- The text is closed, and nothing in it connects conditions. -/
def IsOperand (text : String) : Prop :=
  ∃ items, Reads text items ∧ Atomic items

variable {items more : List Item} {connective : Connective}

/-- Items without connectives can be put together. -/
theorem Atomic.append (h : Atomic items) (h' : Atomic more) : Atomic (items ++ more) :=
  List.forall_mem_append.2 ⟨h, h'⟩

theorem Pending.next?_of_not_structural {item : Item} (h : item.isStructural = false) :
    Pending.next? ⟨0, 0⟩ connective.word item = some ⟨0, 0⟩ := by
  simp only [Item.isStructural, List.any_cons, List.any_nil, Bool.or_false, Bool.or_eq_false_iff] at h
  obtain ⟨hand, hor, hcase, hend, hbetween⟩ := h
  unfold Pending.next?
  cases connective <;> simp [Connective.word, hand, hor, hcase, hend, hbetween]

/-- The connective is looked for behind all items that neither are it nor change what connects. -/
theorem cut_append (h : ∀ item ∈ items, Pending.next? ⟨0, 0⟩ connective.word item = some ⟨0, 0⟩)
    (more : List Item) :
    cut connective.word (items ++ more)
      = (items ++ (cut connective.word more).1, (cut connective.word more).2) := by
  induction items with
  | nil => rfl
  | cons item items ih =>
    obtain ⟨hitem, hitems⟩ := List.forall_mem_cons.1 h
    unfold cut at ih ⊢
    rw [List.cons_append, cutFrom, hitem]
    dsimp only
    rw [ih hitems]
    rfl

/-- Items without the connective are not cut. -/
theorem cut_eq_self (h : ∀ item ∈ items, Pending.next? ⟨0, 0⟩ connective.word item = some ⟨0, 0⟩) :
    cut connective.word items = (items, []) := by
  have hcut := cut_append h []
  rw [List.append_nil] at hcut
  rw [hcut]
  show (items ++ [], []) = _
  rw [List.append_nil]

/-- Items without connectives are not cut at any. -/
theorem Atomic.next? (h : Atomic items) :
    ∀ item ∈ items, Pending.next? ⟨0, 0⟩ connective.word item = some ⟨0, 0⟩ :=
  fun item hitem => Pending.next?_of_not_structural (h item hitem)

/-! ## Operands with connectives between them -/

/-- A connective with spaces around it. -/
def Connective.spaced (connective : Connective) : List Item :=
  [.mark ' ', .word connective.word.toList, .mark ' ']

/-- The items of operands with a connective between them. -/
def connectedItems (connective : Connective) (items : List Item) : List (List Item) → List Item
  | [] => items
  | next :: rest => items ++ connective.spaced ++ connectedItems connective next rest

/-- Items are cut at a connective. -/
theorem cut_connective (h : Atomic items) :
    cut connective.word (items ++ connective.spaced ++ more)
      = (items ++ [.mark ' '],
        (.mark ' ' :: (cut connective.word more).1) :: (cut connective.word more).2) := by
  have hmark : Atomic [.mark ' '] := by decide
  have hword : cut connective.word (.word connective.word.toList :: .mark ' ' :: more)
      = ([], (.mark ' ' :: (cut connective.word more).1) :: (cut connective.word more).2) := by
    cases connective <;> rfl
  rw [List.append_assoc, cut_append h.next?]
  show (items ++ (cut _ ([.mark ' '] ++ (.word _ :: .mark ' ' :: more))).1,
    (cut _ ([.mark ' '] ++ (.word _ :: .mark ' ' :: more))).2) = _
  rw [cut_append hmark.next?, hword]
  rfl

namespace Condition

theorem ofOperand_blank_cons (items : List Item) :
    ofOperand (.mark ' ' :: items) = ofOperand items := rfl

theorem ofOperand_append_blank (items : List Item) :
    ofOperand (items ++ [.mark ' ']) = ofOperand items := by
  unfold ofOperand
  rw [List.dropWhile_append]
  split_ifs with hempty
  · rw [List.isEmpty_iff.1 hempty]
    rfl
  · rw [List.reverse_append]
    rfl

/-- Items without connectives are one operand. -/
theorem ofConjuncts_of_atomic (h : Atomic items) : ofConjuncts items = ofOperand items := by
  unfold ofConjuncts
  rw [show "AND" = Connective.and.word from rfl, cut_eq_self h.next?]
  rfl

/-- Items without connectives are one operand. -/
theorem ofItems_of_atomic (h : Atomic items) : ofItems items = ofOperand items := by
  unfold ofItems
  rw [show "OR" = Connective.or.word from rfl, cut_eq_self h.next?]
  exact ofConjuncts_of_atomic h

end Condition

/-- Cut at the connectives, the items are those of the operands, up to blanks. -/
theorem cut_connectedItems {rest : List (List Item)} (connective : Connective) (h : Atomic items)
    (hrest : ∀ next ∈ rest, Atomic next) :
    ∃ first others, cut connective.word (connectedItems connective items rest) = (first, others)
      ∧ (∀ part ∈ first :: others, Atomic part)
      ∧ (first :: others).map Condition.ofOperand = (items :: rest).map Condition.ofOperand := by
  induction rest generalizing items with
  | nil => exact ⟨items, [], cut_eq_self h.next?, by simpa using h, rfl⟩
  | cons next rest ih =>
    obtain ⟨hnext, hrest⟩ := List.forall_mem_cons.1 hrest
    obtain ⟨first, others, hcut, hatomic, hmap⟩ := ih hnext hrest
    obtain ⟨hfirst, hothers⟩ := List.forall_mem_cons.1 hatomic
    have hmark : Atomic [.mark ' '] := by decide
    refine ⟨items ++ [.mark ' '], (.mark ' ' :: first) :: others, ?_, ?_, ?_⟩
    · rw [connectedItems, cut_connective h, hcut]
    · exact List.forall_mem_cons.2 ⟨h.append hmark,
        List.forall_mem_cons.2 ⟨hmark.append hfirst, hothers⟩⟩
    · rw [List.map_cons, List.map_cons, Condition.ofOperand_append_blank,
        Condition.ofOperand_blank_cons, ← List.map_cons, hmap]
      rfl

/-- No `OR` is found between operands that `AND` connects. -/
theorem cut_or_connectedItems {rest : List (List Item)} (h : Atomic items)
    (hrest : ∀ next ∈ rest, Atomic next) :
    cut Connective.or.word (connectedItems .and items rest)
      = (connectedItems .and items rest, []) := by
  refine cut_eq_self ?_
  induction rest generalizing items with
  | nil => exact h.next?
  | cons next rest ih =>
    obtain ⟨hnext, hrest⟩ := List.forall_mem_cons.1 hrest
    have hspaced : ∀ item ∈ Connective.and.spaced,
        Pending.next? ⟨0, 0⟩ Connective.or.word item = some ⟨0, 0⟩ := by
      simp only [Connective.spaced, List.forall_mem_cons]
      exact ⟨rfl, rfl, rfl, by simp⟩
    rw [connectedItems]
    exact List.forall_mem_append.2 ⟨List.forall_mem_append.2 ⟨h.next?, hspaced⟩, ih hnext hrest⟩

/-- Connected items are read as connected operands. -/
theorem ofItems_connectedItems {rest : List (List Item)} (h : Atomic items)
    (hrest : ∀ next ∈ rest, Atomic next) :
    Condition.ofItems (connectedItems connective items rest)
      = .connected connective (.ofOperand items) (rest.map .ofOperand) := by
  obtain ⟨first, others, hcut, hatomic, hmap⟩ := cut_connectedItems connective h hrest
  obtain ⟨hfirst, hothers⟩ := List.forall_mem_cons.1 hatomic
  obtain ⟨heq, heqs⟩ := List.cons.inj hmap
  rw [← heq, ← heqs, Condition.connected, List.foldl_map]
  cases connective with
  | and =>
    unfold Condition.ofItems
    rw [show "OR" = Connective.or.word from rfl, cut_or_connectedItems h hrest]
    show Condition.ofConjuncts _ = _
    unfold Condition.ofConjuncts
    rw [show "AND" = Connective.and.word from rfl, hcut]
    rfl
  | or =>
    unfold Condition.ofItems
    rw [show "OR" = Connective.or.word from rfl, hcut]
    dsimp only
    rw [Condition.ofConjuncts_of_atomic hfirst]
    refine List.foldl_ext _ _ _ fun condition part hpart => ?_
    rw [Condition.ofConjuncts_of_atomic (hothers part hpart)]
    rfl

/-- What stands between two operands is read as a connective with its blanks. -/
theorem Reads.connect {x y : String} {items' : List Item} (hx : Reads x items)
    (hy : Reads y items') (connective : Connective) :
    Reads (x ++ connective.sql ++ y) (items ++ connective.spaced ++ items') := by
  have hword : Reads connective.word [.word connective.word.toList] := by
    cases connective <;> exact ⟨_, rfl, ⟨rfl, rfl⟩, rfl⟩
  have hreads := (hx.append hword).append hy
  have htext : x ++ connective.sql ++ y = x ++ " " ++ connective.word ++ " " ++ y := by
    apply String.toList_injective
    cases connective <;> simp [Connective.sql, Connective.word]
  rw [htext]
  simpa [Connective.spaced] using hreads

/-- Texts with a connective between them. -/
def connectedText (connective : Connective) (text : String) : List String → String
  | [] => text
  | next :: rest => text ++ connective.sql ++ connectedText connective next rest

/-- Connected texts are those with the connective between them. -/
theorem connectedText_eq_intercalate (connective : Connective) (text : String)
    (texts : List String) :
    connectedText connective text texts = connective.sql.intercalate (text :: texts) := by
  induction texts generalizing text with
  | nil => exact (String.intercalate_singleton ..).symm
  | cons next texts ih => rw [connectedText, ih, String.intercalate_cons_cons]

/-- Connected texts are read as connected items. -/
theorem reads_connectedText {text : String} {texts : List String} {rest : List (List Item)}
    (connective : Connective) (h : Reads text items) (hrest : List.Forall₂ Reads texts rest) :
    Reads (connectedText connective text texts) (connectedItems connective items rest) := by
  induction hrest generalizing text items with
  | nil => exact h
  | cons hnext _ ih => exact h.connect (ih hnext) connective

/-- An operand is read as one condition, which nothing connects. -/
theorem IsOperand.exists_read? {text : String} (h : IsOperand text) :
    ∃ items, Reads text items ∧ Atomic items ∧ read? text = some (.ofOperand items) := by
  obtain ⟨items, hreads, hatomic⟩ := h
  exact ⟨items, hreads, hatomic, hreads.read?.trans
    (congrArg some (Condition.ofItems_of_atomic hatomic))⟩

/-- Operands with a connective between them are read as what they are, with this connective between
them. -/
theorem read?_connectedText {text : String} {texts : List String} (h : IsOperand text)
    (hrest : ∀ next ∈ texts, IsOperand next) :
    ∃ first rest, read? text = some first ∧ List.Forall₂ (read? · = some ·) texts rest
      ∧ ∀ connective, IsClosed (connectedText connective text texts)
        ∧ read? (connectedText connective text texts) = some (.connected connective first rest) := by
  obtain ⟨items, hreads, hatomic, hread⟩ := h.exists_read?
  have hparts : ∃ parts, List.Forall₂ Reads texts parts ∧ (∀ part ∈ parts, Atomic part)
      ∧ List.Forall₂ (read? · = some ·) texts (parts.map .ofOperand) := by
    clear hreads hread
    induction texts with
    | nil => exact ⟨[], .nil, by simp, .nil⟩
    | cons next texts ih =>
      obtain ⟨hnext, hrest⟩ := List.forall_mem_cons.1 hrest
      obtain ⟨part, hpart, hatomic', hread'⟩ := hnext.exists_read?
      obtain ⟨parts, hparts, hall, hreads'⟩ := ih hrest
      exact ⟨part :: parts, .cons hpart hparts, List.forall_mem_cons.2 ⟨hatomic', hall⟩,
        .cons hread' hreads'⟩
  obtain ⟨parts, hparts, hall, hread'⟩ := hparts
  refine ⟨.ofOperand items, parts.map .ofOperand, hread, hread', fun connective => ?_⟩
  have hconnected := reads_connectedText connective hreads hparts
  refine ⟨isClosed_iff_exists_reads.2 ⟨_, hconnected⟩, ?_⟩
  rw [hconnected.read?, ofItems_connectedItems hatomic hall]

end EntitySql.Sql
