import Mathlib.Data.List.Forall2
import Mathlib.Data.List.Nodup

/-!
# Lists and options

Two lists are related by `List.Forall₂` if their members are, one by one, and two options by
`Option.Rel` if both are absent or their values are related. Further facts are about filters, keys
and separators.
-/

namespace EntitySql

variable {α α' β β' : Type} {R : α → β → Prop} {Q : α' → β' → Prop}

/-! ## Related lists and options -/

/-- What follows from being related to a member of the first list holds of the second list. -/
theorem forall_of_forall₂ {P : β → Prop} {l : List α} {l' : List β} (h : List.Forall₂ R l l')
    (hP : ∀ a ∈ l, ∀ b, R a b → P b) : ∀ b ∈ l', P b := by
  induction h with
  | nil => exact List.forall_mem_nil _
  | cons hab _ ih =>
    obtain ⟨hfirst, hrest⟩ := List.forall_mem_cons.1 hP
    exact List.forall_mem_cons.2 ⟨hfirst _ hab, ih hrest⟩

/-- Related lists are related at each place, and end together. -/
theorem forall₂_getElem? {l : List α} {l' : List β} (h : List.Forall₂ R l l') (i : Nat) :
    Option.Rel R l[i]? l'[i]? := by
  induction h generalizing i with
  | nil => exact .none
  | cons hab _ ih =>
    cases i with
    | zero => exact .some hab
    | succ i => exact ih i

/-- Related lists stay related if related values are put in at the same place. -/
theorem forall₂_set {l : List α} {l' : List β} (h : List.Forall₂ R l l') (i : Nat) {a : α} {b : β}
    (hab : R a b) : List.Forall₂ R (l.set i a) (l'.set i b) := by
  induction h generalizing i with
  | nil => exact .nil
  | cons hhead htail ih =>
    cases i with
    | zero => exact .cons hab htail
    | succ i => exact .cons hhead (ih i)

/-- Pairs from related lists are related in both parts. -/
theorem forall₂_zip {as : List α} {bs : List β} {as' : List α'} {bs' : List β'}
    (h : List.Forall₂ R as bs) (h' : List.Forall₂ Q as' bs') :
    List.Forall₂ (fun p q => R p.1 q.1 ∧ Q p.2 q.2) (as.zip as') (bs.zip bs') := by
  induction h generalizing as' bs' with
  | nil => exact .nil
  | cons hab _ ih =>
    cases h' with
    | nil => exact .nil
    | cons hcd hrest => exact .cons ⟨hab, hcd⟩ (ih hrest)

/-- What is related to a value is a value. -/
theorem exists_of_rel_some {a : α} {b : Option β} (h : Option.Rel R (some a) b) :
    ∃ b', b = some b' ∧ R a b' := by
  cases h with
  | some h => exact ⟨_, rfl, h⟩

theorem isSome_eq_of_rel {a : Option α} {b : Option β} (h : Option.Rel R a b) :
    a.isSome = b.isSome := by
  cases h <;> rfl

/-! ## Pairs -/

/-- The members of a list are paired, if the other list is long enough. -/
theorem exists_mem_zip_left {l : List α} {l' : List β} {a : α} (h : l.length ≤ l'.length)
    (ha : a ∈ l) : ∃ b, (a, b) ∈ l.zip l' := by
  rw [← List.map_fst_zip h] at ha
  obtain ⟨pair, hpair, rfl⟩ := List.mem_map.1 ha
  exact ⟨pair.2, hpair⟩

theorem exists_mem_zip_right {l : List α} {l' : List β} {b : β} (h : l'.length ≤ l.length)
    (hb : b ∈ l') : ∃ a, (a, b) ∈ l.zip l' := by
  rw [← List.map_snd_zip h] at hb
  obtain ⟨pair, hpair, rfl⟩ := List.mem_map.1 hb
  exact ⟨pair.1, hpair⟩

/-! ## Filters and keys -/

/-- Filters of which no two pass the same row keep together what one of them passes. -/
theorem perm_flatMap_filter {ι : Type} {arms : List ι} {p : ι → α → Bool} {rows : List α}
    (h : arms.Pairwise fun a b => ∀ row ∈ rows, p a row = true → p b row = false) :
    (arms.flatMap fun arm => rows.filter (p arm)).Perm
      (rows.filter fun row => arms.any (p · row)) := by
  induction h with
  | nil => simp
  | @cons a arms hfirst _ ih =>
    -- what the first filter passes, and the rest, of which it passes nothing
    have hsplit := List.filter_append_perm (p a) (rows.filter fun row => (a :: arms).any (p · row))
    have ha : (rows.filter fun row => (a :: arms).any (p · row)).filter (p a)
        = rows.filter (p a) := by
      rw [List.filter_filter]
      refine List.filter_congr fun row _ => ?_
      cases hp : p a row <;> simp [hp]
    have hrest : (rows.filter fun row => (a :: arms).any (p · row)).filter (!p a ·)
        = rows.filter fun row => arms.any (p · row) := by
      rw [List.filter_filter]
      refine List.filter_congr fun row hrow => ?_
      cases hp : p a row with
      | false => simp [hp]
      | true => simpa using fun b hb => hfirst b hb row hrow hp
    rw [ha, hrest] at hsplit
    exact (ih.append_left _).trans hsplit

/-- Without its repetitions, a list has no member twice. -/
theorem nodup_eraseDups [BEq α] [LawfulBEq α] (l : List α) : l.eraseDups.Nodup := by
  induction hn : l.length using Nat.strongRecOn generalizing l with
  | _ n ih =>
    cases l with
    | nil => exact List.nodup_nil
    | cons a l =>
      rw [List.eraseDups_cons, List.nodup_cons, List.mem_eraseDups]
      have hlength : (l.filter fun b => !b == a).length < n := by
        rw [← hn, List.length_cons]
        exact Nat.lt_succ_of_le (List.length_filter_le ..)
      exact ⟨by simp, ih _ hlength _ rfl⟩

/-- Where no key occurs twice, the look-up of a key finds the one member that has it. -/
theorem find?_eq_some_of_nodup {κ : Type} [DecidableEq κ] {key : α → κ} {l : List α}
    (h : (l.map key).Nodup) {k : κ} {a : α} :
    l.find? (key · = k) = some a ↔ a ∈ l ∧ key a = k := by
  constructor
  · intro hfind
    exact ⟨List.mem_of_find?_eq_some hfind, by simpa using List.find?_some hfind⟩
  · rintro ⟨ha, rfl⟩
    cases hfind : l.find? (key · = key a) with
    | none => exact absurd (decide_eq_true rfl) (List.find?_eq_none.1 hfind a ha)
    | some b =>
      have hkey : key b = key a := by simpa using List.find?_some hfind
      rw [List.inj_on_of_nodup_map h (List.mem_of_find?_eq_some hfind) ha hkey]

/-! ## Separators -/

/-- A separator stands between the first parts and the others. -/
theorem intercalate_append {x : α} {parts more : List (List α)} (hparts : parts ≠ [])
    (hmore : more ≠ []) :
    [x].intercalate (parts ++ more) = [x].intercalate parts ++ [x] ++ [x].intercalate more := by
  induction parts with
  | nil => exact absurd rfl hparts
  | cons part parts ih =>
    cases parts with
    | nil => rw [List.singleton_append, List.intercalate_cons_of_ne_nil hmore,
        List.intercalate_singleton]
    | cons next parts =>
      rw [List.cons_append, List.cons_append, List.intercalate_cons_cons,
        List.intercalate_cons_cons, ← List.cons_append, ih (List.cons_ne_nil _ _)]
      simp only [List.append_assoc]

/-- The parts of a list are the first parts of another if that goes on with a separator. -/
theorem splitOn_isPrefix_iff [DecidableEq α] {x : α} {short long : List α} :
    short.splitOn x <+: long.splitOn x ↔ short = long ∨ short ++ [x] <+: long := by
  constructor
  · rintro ⟨rest, hrest⟩
    have hlong : [x].intercalate (short.splitOn x ++ rest) = long := by
      rw [hrest, List.intercalate_splitOn]
    cases rest with
    | nil => exact .inl (by rwa [List.append_nil, List.intercalate_splitOn] at hlong)
    | cons part rest =>
      rw [intercalate_append (List.splitOn_ne_nil x short) (List.cons_ne_nil part rest),
        List.intercalate_splitOn] at hlong
      exact .inr ⟨_, hlong⟩
  · rintro (rfl | ⟨rest, rfl⟩)
    · exact List.prefix_rfl
    · rw [List.append_assoc, List.singleton_append, List.splitOn_append_cons_self]
      exact List.prefix_append ..

end EntitySql
