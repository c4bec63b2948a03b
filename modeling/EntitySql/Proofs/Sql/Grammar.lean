import EntitySql.Sql.WellFormed
import Mathlib.Data.List.Infix

/-!
# The grammar of well-formed SQL

A text closes what it opens exactly if it is a sequence of items: quoted texts, bracketed names,
sequences in parentheses, and single characters. The scanner of `closesFrom` knows nothing of items,
only its region and the number of open parentheses. What it still has to read with `n` parentheses
open is `n` sequences with a closing parenthesis behind each of them, and one more sequence
(`EndsWith`); inside of quotes or brackets the rest of these comes first (`Completes`).
-/

namespace EntitySql.Sql

/-! ## Items -/

/-- A quoted text, a bracketed name, some items in parentheses, or another character by itself. -/
inductive IsItem : List Char → Prop
  | quoted {body : List Char} (h : '\'' ∉ body) : IsItem ('\'' :: (body ++ ['\'']))
  | bracketed {body : List Char} (h : '[' ∉ body ∧ ']' ∉ body) : IsItem ('[' :: (body ++ [']']))
  | parenthesized {items : List (List Char)} (h : ∀ item ∈ items, IsItem item) :
    IsItem ('(' :: (items.flatten ++ [')']))
  | single {c : Char} (h : c ∉ ['\'', '[', ']', '(', ')']) : IsItem [c]

/-- The characters are those of some items, one behind the other. -/
def IsSequence (cs : List Char) : Prop :=
  ∃ items : List (List Char), (∀ item ∈ items, IsItem item) ∧ items.flatten = cs

theorem IsSequence.nil : IsSequence [] :=
  ⟨[], List.forall_mem_nil _, rfl⟩

theorem IsSequence.cons {item cs : List Char} (hitem : IsItem item) (h : IsSequence cs) :
    IsSequence (item ++ cs) := by
  obtain ⟨items, hitems, rfl⟩ := h
  exact ⟨item :: items, List.forall_mem_cons.2 ⟨hitem, hitems⟩, rfl⟩

/-- A sequence in parentheses is one item. -/
theorem IsSequence.parenthesized {cs : List Char} (h : IsSequence cs) :
    IsItem ('(' :: (cs ++ [')'])) := by
  obtain ⟨items, hitems, rfl⟩ := h
  exact .parenthesized hitems

/-! ## The scanner passes over items -/

variable {depth : Nat} {body cs : List Char}

/-- Within quotes, everything but a quote is passed over. -/
theorem closesFrom_quoted_append (h : '\'' ∉ body) (rest : List Char) :
    closesFrom .quoted depth (body ++ rest) = closesFrom .quoted depth rest := by
  induction body with
  | nil => rfl
  | cons c body ih =>
    obtain ⟨hc, hbody⟩ := not_or.1 (List.mem_cons.not.1 h)
    rw [List.cons_append, closesFrom, if_neg (Ne.symm hc)]
    exact ih hbody

/-- Within brackets, everything but a bracket is passed over. -/
theorem closesFrom_bracketed_append (h : '[' ∉ body ∧ ']' ∉ body) (rest : List Char) :
    closesFrom .bracketed depth (body ++ rest) = closesFrom .bracketed depth rest := by
  induction body with
  | nil => rfl
  | cons c body ih =>
    obtain ⟨hopen, hopens⟩ := not_or.1 (List.mem_cons.not.1 h.1)
    obtain ⟨hclose, hcloses⟩ := not_or.1 (List.mem_cons.not.1 h.2)
    rw [List.cons_append, closesFrom, if_neg (Ne.symm hopen), if_neg (Ne.symm hclose)]
    exact ih ⟨hopens, hcloses⟩

/-- Items one behind the other are passed over if each of them is. -/
theorem closesFrom_flatten {items : List (List Char)}
    (h : ∀ item ∈ items, ∀ depth rest,
      closesFrom .plain depth (item ++ rest) = closesFrom .plain depth rest)
    (depth : Nat) (rest : List Char) :
    closesFrom .plain depth (items.flatten ++ rest) = closesFrom .plain depth rest := by
  induction items with
  | nil => rfl
  | cons item items ih =>
    obtain ⟨hitem, hitems⟩ := List.forall_mem_cons.1 h
    rw [List.flatten_cons, List.append_assoc, hitem]
    exact ih hitems

/-- The scanner is behind an item where it was before it. -/
theorem IsItem.closesFrom_append {item : List Char} (h : IsItem item) (depth : Nat)
    (rest : List Char) :
    closesFrom .plain depth (item ++ rest) = closesFrom .plain depth rest := by
  induction h generalizing depth rest with
  | quoted h =>
    rw [List.cons_append, List.append_assoc]
    exact closesFrom_quoted_append h _
  | bracketed h =>
    rw [List.cons_append, List.append_assoc]
    exact closesFrom_bracketed_append h _
  | parenthesized _ ih =>
    rw [List.cons_append, List.append_assoc]
    exact (closesFrom_flatten ih (depth + 1) _).trans (by simp [closesFrom])
  | single h =>
    simp only [List.mem_cons, List.not_mem_nil, or_false, not_or] at h
    simp [closesFrom, h]

/-- A sequence of items closes what it opens, by induction on the items. -/
theorem IsSequence.closesFrom (h : IsSequence cs) : closesFrom .plain 0 cs = true := by
  obtain ⟨items, hitems, rfl⟩ := h
  have hpass := closesFrom_flatten (fun item hitem => (hitems item hitem).closesFrom_append) 0 []
  rw [List.append_nil] at hpass
  exact hpass

/-! ## What is left to read -/

/-- A sequence for each open parenthesis, which ends with it, and one more sequence. -/
def EndsWith : Nat → List Char → Prop
  | 0, cs => IsSequence cs
  | depth + 1, cs =>
    ∃ inner rest, IsSequence inner ∧ EndsWith depth rest ∧ cs = inner ++ ')' :: rest

/-- What is left to read in a region with so many open parentheses. -/
def Completes (depth : Nat) (cs : List Char) : Region → Prop
  | .plain => EndsWith depth cs
  | .quoted => ∃ body rest, '\'' ∉ body ∧ EndsWith depth rest ∧ cs = body ++ '\'' :: rest
  | .bracketed =>
    ∃ body rest, ('[' ∉ body ∧ ']' ∉ body) ∧ EndsWith depth rest ∧ cs = body ++ ']' :: rest

namespace EndsWith

/-- Items before the end leave it as it is. -/
theorem cons {item : List Char} (hitem : IsItem item) (h : EndsWith depth cs) :
    EndsWith depth (item ++ cs) := by
  cases depth with
  | zero => exact IsSequence.cons hitem h
  | succ depth =>
    obtain ⟨inner, rest, hinner, hrest, rfl⟩ := h
    exact ⟨item ++ inner, rest, hinner.cons hitem, hrest, (List.append_assoc ..).symm⟩

/-- A quote opens what the rest completes. -/
theorem quote (h : Completes depth cs .quoted) : EndsWith depth ('\'' :: cs) := by
  obtain ⟨body, rest, hbody, hrest, rfl⟩ := h
  simpa using hrest.cons (.quoted hbody)

/-- A bracket opens what the rest completes. -/
theorem bracket (h : Completes depth cs .bracketed) : EndsWith depth ('[' :: cs) := by
  obtain ⟨body, rest, hbody, hrest, rfl⟩ := h
  simpa using hrest.cons (.bracketed hbody)

/-- A parenthesis that opens makes an item of the first sequence. -/
theorem opened (h : EndsWith (depth + 1) cs) : EndsWith depth ('(' :: cs) := by
  obtain ⟨inner, rest, hinner, hrest, rfl⟩ := h
  simpa using hrest.cons hinner.parenthesized

/-- A closing parenthesis ends one level. -/
theorem closed (h : EndsWith depth cs) : EndsWith (depth + 1) (')' :: cs) :=
  ⟨[], cs, .nil, h, rfl⟩

end EndsWith

/-- What closes is a sequence of items, by induction on the characters. -/
theorem completes_of_closesFrom {region : Region} (h : closesFrom region depth cs = true) :
    Completes depth cs region := by
  induction cs generalizing region depth with
  | nil =>
    simp only [closesFrom, Bool.and_eq_true, decide_eq_true_eq] at h
    obtain ⟨rfl, rfl⟩ := h
    exact IsSequence.nil
  | cons c cs ih =>
    cases region with
    | plain =>
      rw [closesFrom] at h
      split_ifs at h with hquote hopen hstray hparen hclose
      · exact hquote ▸ EndsWith.quote (ih h)
      · exact hopen ▸ EndsWith.bracket (ih h)
      · exact hparen ▸ EndsWith.opened (ih h)
      · -- the innermost sequence ends here
        obtain ⟨hdepth, h⟩ := Bool.and_eq_true_iff.1 h
        obtain ⟨depth, rfl⟩ := Nat.exists_eq_add_one.2 (of_decide_eq_true hdepth)
        exact hclose ▸ EndsWith.closed (ih h)
      · exact EndsWith.cons (.single (by simp [hquote, hopen, hstray, hparen, hclose])) (ih h)
    | quoted =>
      rw [closesFrom] at h
      split_ifs at h with hquote
      · exact ⟨[], cs, List.not_mem_nil, ih h, by rw [hquote]; rfl⟩
      · obtain ⟨body, rest, hbody, hrest, rfl⟩ := ih h
        exact ⟨c :: body, rest, by simp [Ne.symm hquote, hbody], hrest, rfl⟩
    | bracketed =>
      rw [closesFrom] at h
      split_ifs at h with hopen hclose
      · exact ⟨[], cs, ⟨List.not_mem_nil, List.not_mem_nil⟩, ih h, by rw [hclose]; rfl⟩
      · obtain ⟨body, rest, hbody, hrest, rfl⟩ := ih h
        exact ⟨c :: body, rest, by simp [Ne.symm hopen, Ne.symm hclose, hbody], hrest, rfl⟩

/-! ## Well-formed texts -/

theorem occursIn_iff_isInfix {part cs : List Char} : occursIn part cs = true ↔ part <:+: cs := by
  induction cs with
  | nil => rw [occursIn, List.isEmpty_iff, List.infix_nil]
  | cons c cs ih =>
    rw [occursIn, Bool.or_eq_true, List.isPrefixOf_iff_prefix, ih, List.infix_cons_iff]

/-- A text is well formed exactly if it is not blank, does not show an anchor, and is a sequence of
items. -/
theorem isWellFormed_iff_isSequence (sql : String) :
    isWellFormed sql = true ↔
      (∃ c ∈ sql.toList, Text.isBlank c = false) ∧ ¬"<anchor".toList <:+: sql.toList
        ∧ IsSequence sql.toList := by
  have hblank : Text.isBlankText sql = false ↔ ∃ c ∈ sql.toList, Text.isBlank c = false := by
    simp [Text.isBlankText]
  have hcloses : closesFrom .plain 0 sql.toList = true ↔ IsSequence sql.toList :=
    ⟨completes_of_closesFrom, IsSequence.closesFrom⟩
  rw [isWellFormed, Bool.and_eq_true, Bool.and_eq_true, Bool.not_eq_true', Bool.not_eq_true',
    hblank, hcloses, ← occursIn_iff_isInfix, Bool.not_eq_true, and_assoc]

example : isWellFormed "f('it''s ]', [a'(b]) ((1))" = true ∧ isWellFormed "[a[b]]" = false := by
  decide +kernel

end EntitySql.Sql
