import Mathlib.Data.List.Forall2

/-!
# Computations that can fail

When a sequence of steps in `Except` succeeds, and with what result. `SameOutcome` compares two
computations: both fail with the same error, or both succeed.
-/

namespace EntitySql

variable {ε α β γ : Type}

/-- Two answers in a row are fine if both are. -/
theorem Except.bind_eq_ok {x : Except ε α} {f : α → Except ε β} {b : β} :
    (x >>= f) = .ok b ↔ ∃ a, x = .ok a ∧ f a = .ok b := by
  cases x with
  | error e =>
    constructor
    · intro h
      cases h
    · rintro ⟨_, h, _⟩
      cases h
  | ok a =>
    constructor
    · intro h
      exact ⟨a, rfl, h⟩
    · rintro ⟨a', ha, h⟩
      obtain rfl := Except.ok.inj ha
      exact h

theorem Except.exists_eq_ok {x : Except ε α} (h : x.toOption.isSome = true) :
    ∃ a, x = .ok a := by
  cases x with
  | error e => exact absurd h Bool.false_ne_true
  | ok a => exact ⟨a, rfl⟩

theorem Except.exists_eq_ok_of_map {x : Except ε α} {f : α → β} {b : β}
    (h : x.toOption.map f = some b) : ∃ a, x = .ok a ∧ f a = b := by
  cases x with
  | error e => cases h
  | ok a => exact ⟨a, rfl, Option.some.inj h⟩

/-- A traversal succeeds exactly if each of its steps does, and collects their results. -/
theorem Except.mapM_eq_ok {f : α → Except ε β} {l : List α} {bs : List β} :
    l.mapM f = .ok bs ↔ List.Forall₂ (fun a b => f a = .ok b) l bs := by
  induction l generalizing bs with
  | nil =>
    rw [List.mapM_nil, List.forall₂_nil_left_iff]
    exact ⟨fun h => (Except.ok.inj h).symm, fun h => h ▸ rfl⟩
  | cons a l ih =>
    rw [List.mapM_cons, Except.bind_eq_ok, List.forall₂_cons_left_iff]
    constructor
    · rintro ⟨b, hb, h⟩
      obtain ⟨rest, hrest, heq⟩ := Except.bind_eq_ok.1 h
      exact ⟨b, rest, hb, ih.1 hrest, (Except.ok.inj heq).symm⟩
    · rintro ⟨b, rest, hb, hrest, rfl⟩
      exact ⟨b, hb, Except.bind_eq_ok.2 ⟨rest, ih.2 hrest, rfl⟩⟩

/-- The error of a traversal is that of one of its steps. -/
theorem Except.exists_of_mapM_eq_error {f : α → Except ε β} {l : List α} {e : ε}
    (h : l.mapM f = .error e) : ∃ a ∈ l, f a = .error e := by
  induction l with
  | nil => cases h
  | cons a l ih =>
    rw [List.mapM_cons] at h
    cases ha : f a with
    | error e' =>
      rw [ha] at h
      obtain rfl := Except.error.inj h
      exact ⟨a, List.mem_cons_self .., ha⟩
    | ok b =>
      rw [ha] at h
      cases hl : l.mapM f with
      | error e' =>
        rw [hl] at h
        obtain rfl := Except.error.inj h
        obtain ⟨c, hc, hf⟩ := ih hl
        exact ⟨c, List.mem_cons_of_mem _ hc, hf⟩
      | ok bs =>
        rw [hl] at h
        cases h

/-- Answers for a list are fine if all are. -/
theorem Except.exists_mapM_eq_ok {f : α → Except ε β} {l : List α} :
    (∃ bs, l.mapM f = .ok bs) ↔ ∀ a ∈ l, ∃ b, f a = .ok b := by
  simp only [Except.mapM_eq_ok]
  induction l with
  | nil => simp
  | cons a l ih => simp [List.forall₂_cons_left_iff, ← ih, -exists_and_left, exists_and_left]

/-- An answer for a list comes from one of its members. -/
theorem Except.exists_of_mem_mapM {f : α → Except ε β} {l : List α} {bs : List β}
    (h : l.mapM f = .ok bs) {b : β} (hb : b ∈ bs) : ∃ a ∈ l, f a = .ok b := by
  have hall := Except.mapM_eq_ok.1 h
  clear h
  induction hall with
  | nil => cases hb
  | @cons a c l cs hac _ ih =>
    rcases List.mem_cons.1 hb with rfl | hb
    · exact ⟨a, List.mem_cons_self .., hac⟩
    · obtain ⟨a', ha', hf⟩ := ih hb
      exact ⟨a', List.mem_cons_of_mem _ ha', hf⟩

/-- Every member of a list has an answer. -/
theorem Except.exists_mem_of_mapM {f : α → Except ε β} {l : List α} {bs : List β}
    (h : l.mapM f = .ok bs) {a : α} (ha : a ∈ l) : ∃ b ∈ bs, f a = .ok b := by
  have hall := Except.mapM_eq_ok.1 h
  clear h
  induction hall with
  | nil => cases ha
  | @cons c b l bs hcb _ ih =>
    rcases List.mem_cons.1 ha with rfl | ha
    · exact ⟨b, List.mem_cons_self .., hcb⟩
    · obtain ⟨b', hb', hf⟩ := ih ha
      exact ⟨b', List.mem_cons_of_mem _ hb', hf⟩

theorem Except.forM_eq_ok {f : α → Except ε Unit} {l : List α} :
    l.forM f = .ok () ↔ ∀ a ∈ l, f a = .ok () := by
  induction l with
  | nil => exact ⟨fun _ => nofun, fun _ => rfl⟩
  | cons a l ih =>
    rw [List.forM, Except.bind_eq_ok, List.forall_mem_cons, ← ih]
    exact ⟨fun ⟨_, ha, hl⟩ => ⟨ha, hl⟩, fun ⟨ha, hl⟩ => ⟨(), ha, hl⟩⟩

/-- What each step preserves, a traversal does. -/
theorem Except.map_eq_of_mapM {f : α → Except ε β} {g : β → γ} {k : α → γ} {l : List α}
    {bs : List β} (h : l.mapM f = .ok bs) (hg : ∀ a b, f a = .ok b → g b = k a) :
    bs.map g = l.map k := by
  have hall := Except.mapM_eq_ok.1 h
  clear h
  induction hall with
  | nil => rfl
  | cons hab _ ih => rw [List.map_cons, List.map_cons, ih, hg _ _ hab]

/-! ## Two computations -/

/-- Both computations fail with the same error, or both have results, which are related. -/
inductive SameOutcome {ε α β : Type} (R : α → β → Prop) : Except ε α → Except ε β → Prop
  | ok {a : α} {b : β} (h : R a b) : SameOutcome R (.ok a) (.ok b)
  | error (e : ε) : SameOutcome R (.error e) (.error e)

namespace SameOutcome

variable {ε ε' α β γ δ α' β' : Type} {R : α → β → Prop} {R' : α' → β' → Prop} {x : Except ε α}
  {y : Except ε β}

theorem refl {R : α → α → Prop} (h : ∀ a, R a a) (x : Except ε α) : SameOutcome R x x := by
  cases x with
  | error e => exact .error e
  | ok a => exact .ok (h a)

theorem mono {Q : α → β → Prop} (h : SameOutcome R x y) (himp : ∀ a b, R a b → Q a b) :
    SameOutcome Q x y := by
  cases h with
  | ok hab => exact .ok (himp _ _ hab)
  | error e => exact .error e

theorem map {f : α → α'} {g : β → β'} (h : SameOutcome R x y)
    (hfg : ∀ a b, R a b → R' (f a) (g b)) : SameOutcome R' (x.map f) (y.map g) := by
  cases h with
  | ok hab => exact .ok (hfg _ _ hab)
  | error e => exact .error e

theorem mapError (h : SameOutcome R x y) (k : ε → ε') :
    SameOutcome R (x.mapError k) (y.mapError k) := by
  cases h with
  | ok hab => exact .ok hab
  | error e => exact .error (k e)

/-- The rule for one answer after another. -/
theorem bind {f : α → Except ε α'} {g : β → Except ε β'} (h : SameOutcome R x y)
    (hfg : ∀ a b, R a b → SameOutcome R' (f a) (g b)) : SameOutcome R' (x >>= f) (y >>= g) := by
  cases h with
  | ok hab => exact hfg _ _ hab
  | error e => exact .error e

/-- The rule for answers for related lists. -/
theorem mapM {f : γ → Except ε α} {g : δ → Except ε β} {l : List γ} {l' : List δ}
    (h : List.Forall₂ (fun c d => SameOutcome R (f c) (g d)) l l') :
    SameOutcome (List.Forall₂ R) (l.mapM f) (l'.mapM g) := by
  induction h with
  | nil => exact .ok .nil
  | cons hab _ ih =>
    rw [List.mapM_cons, List.mapM_cons]
    refine hab.bind fun a b hab => ih.bind fun as bs habs => ?_
    exact .ok (.cons hab habs)

end SameOutcome

/-- Both computations fail, with errors that are related, or both have results, which are related.
-/
inductive RelatedOutcome {ε α β : Type} (E : ε → ε → Prop) (R : α → β → Prop) :
    Except ε α → Except ε β → Prop
  | ok {a : α} {b : β} (h : R a b) : RelatedOutcome E R (.ok a) (.ok b)
  | error {e e' : ε} (h : E e e') : RelatedOutcome E R (.error e) (.error e')

namespace RelatedOutcome

variable {ε α β γ δ α' β' : Type} {E : ε → ε → Prop} {R : α → β → Prop} {R' : α' → β' → Prop}
  {x : Except ε α} {y : Except ε β}

/-- The same outcome is a related one. -/
theorem ofSame (h : SameOutcome R x y) (hE : ∀ e, E e e) : RelatedOutcome E R x y := by
  cases h with
  | ok hab => exact .ok hab
  | error e => exact .error (hE e)

/-- A related outcome is the same if errors are related only to themselves. -/
theorem same (h : RelatedOutcome E R x y) (hE : ∀ e e', E e e' → e' = e) : SameOutcome R x y := by
  cases h with
  | ok hab => exact .ok hab
  | @error e e' he =>
    obtain rfl := hE e e' he
    exact .error e'

theorem map {f : α → α'} {g : β → β'} (h : RelatedOutcome E R x y)
    (hfg : ∀ a b, R a b → R' (f a) (g b)) : RelatedOutcome E R' (x.map f) (y.map g) := by
  cases h with
  | ok hab => exact .ok (hfg _ _ hab)
  | error he => exact .error he

/-- The rule for one answer after another. -/
theorem bind {f : α → Except ε α'} {g : β → Except ε β'} (h : RelatedOutcome E R x y)
    (hfg : ∀ a b, R a b → RelatedOutcome E R' (f a) (g b)) :
    RelatedOutcome E R' (x >>= f) (y >>= g) := by
  cases h with
  | ok hab => exact hfg _ _ hab
  | error he => exact .error he

/-- The rule for answers for related lists. -/
theorem mapM {f : γ → Except ε α} {g : δ → Except ε β} {l : List γ} {l' : List δ}
    (h : List.Forall₂ (fun c d => RelatedOutcome E R (f c) (g d)) l l') :
    RelatedOutcome E (List.Forall₂ R) (l.mapM f) (l'.mapM g) := by
  induction h with
  | nil => exact .ok .nil
  | cons hab _ ih =>
    rw [List.mapM_cons, List.mapM_cons]
    refine hab.bind fun a b hab => ih.bind fun as bs habs => ?_
    exact .ok (.cons hab habs)

end RelatedOutcome

end EntitySql
