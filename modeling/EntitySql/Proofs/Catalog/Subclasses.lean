import EntitySql.Proofs.Catalog.Definition
import Mathlib.Data.Nat.Find

/-!
# The search upwards

`isSubclassOf` follows base classes up to a bound on the length of the walk. The bound is
sufficient: on a shortest walk up to a base, each class is one step closer to the base than the
class before it, so that no class occurs twice (`BelowBy.exists_walk`). Where no two classes have
the same number, the search answers for every class whether it derives from the base
(`isSubclassOf_iff`), be there cycles or not.
-/

namespace EntitySql.Catalog

variable {catalog : Catalog} {id base : ClassId} {bound bound' : Nat}

theorem isSubclassWithin_self (base : ClassId) (bound : Nat) :
    catalog.isSubclassWithin base bound base = true := by
  cases bound <;> simp [isSubclassWithin]

/-- A class is found, or it is found from one of the bases. -/
theorem isSubclassWithin_succ :
    catalog.isSubclassWithin base (bound + 1) id = true ↔
      id = base ∨ ∃ c, findClass? catalog.classes id = some c
        ∧ ∃ b ∈ c.bases, catalog.isSubclassWithin base bound b = true := by
  rw [isSubclassWithin, Bool.or_eq_true, decide_eq_true_eq]
  cases findClass? catalog.classes id with
  | none => simp
  | some c => simp

/-- What is found is found with a higher bound. -/
theorem isSubclassWithin_mono (hle : bound ≤ bound')
    (h : catalog.isSubclassWithin base bound id = true) :
    catalog.isSubclassWithin base bound' id = true := by
  induction bound generalizing bound' id with
  | zero =>
    obtain rfl : id = base := of_decide_eq_true h
    exact isSubclassWithin_self ..
  | succ bound ih =>
    obtain ⟨bound', rfl⟩ : ∃ n, bound' = n + 1 := ⟨bound' - 1, by omega⟩
    rw [isSubclassWithin_succ] at h ⊢
    rcases h with heq | ⟨c, hc, b, hb, hwithin⟩
    · exact .inl heq
    · exact .inr ⟨c, hc, b, hb, ih (by omega) hwithin⟩

/-! ## Shortest walks -/

/-- The shortest walks from a class up to the base have this number of steps. -/
structure BelowBy (catalog : Catalog) (base : ClassId) (steps : Nat) (id : ClassId) : Prop where
  within : catalog.isSubclassWithin base steps id = true
  least : ∀ fewer < steps, ¬catalog.isSubclassWithin base fewer id = true

theorem BelowBy.eq {steps steps' : Nat} (h : catalog.BelowBy base steps id)
    (h' : catalog.BelowBy base steps' id) : steps = steps' := by
  rcases Nat.lt_trichotomy steps steps' with hlt | heq | hlt
  · exact absurd h.within (h'.least steps hlt)
  · exact heq
  · exact absurd h'.within (h.least steps' hlt)

/-- What is found is below the base by some number of steps. -/
theorem exists_belowBy (h : catalog.isSubclassWithin base bound id = true) :
    ∃ steps, catalog.BelowBy base steps id := by
  have hsome : ∃ steps, catalog.isSubclassWithin base steps id = true := ⟨bound, h⟩
  exact ⟨Nat.find hsome, Nat.find_spec hsome, fun fewer hlt => Nat.find_min hsome hlt⟩

/-- A shortest walk begins with a step to a class that is one step closer to the base. -/
theorem BelowBy.exists_step {steps : Nat} (h : catalog.BelowBy base (steps + 1) id) :
    id ∈ catalog.classes.map (·.id) ∧ ∃ closer, catalog.BelowBy base steps closer := by
  rcases isSubclassWithin_succ.1 h.within with rfl | ⟨c, hc, b, hb, hwithin⟩
  · exact absurd (isSubclassWithin_self id 0) (h.least 0 (by omega))
  · refine ⟨id_mem_of_classDef (classDef_eq_ok.2 hc), b, hwithin, ?_⟩
    intro fewer hlt hfewer
    refine h.least (fewer + 1) (by omega) (isSubclassWithin_succ.2 (.inr ⟨c, hc, b, hb, hfewer⟩))

/-- The classes on a shortest walk are different classes of the catalog. -/
theorem BelowBy.exists_walk {steps : Nat} (h : catalog.BelowBy base steps id) :
    ∃ walk : List ClassId, walk.Nodup ∧ walk ⊆ catalog.classes.map (·.id) ∧ walk.length = steps
      ∧ ∀ x ∈ walk, ∃ n ≤ steps, catalog.BelowBy base n x := by
  induction steps generalizing id with
  | zero => exact ⟨[], List.nodup_nil, List.nil_subset _, rfl, by simp⟩
  | succ steps ih =>
    obtain ⟨hid, closer, hcloser⟩ := h.exists_step
    obtain ⟨walk, hnodup, hsubset, hlength, hbelow⟩ := ih hcloser
    have hnew : id ∉ walk := by
      intro hmem
      obtain ⟨n, hn, hbelow⟩ := hbelow id hmem
      have heq := h.eq hbelow
      omega
    refine ⟨id :: walk, List.nodup_cons.2 ⟨hnew, hnodup⟩, List.cons_subset.2 ⟨hid, hsubset⟩,
      congrArg (· + 1) hlength, ?_⟩
    intro x hx
    rcases List.mem_cons.1 hx with rfl | hx
    · exact ⟨steps + 1, Nat.le_refl _, h⟩
    · obtain ⟨n, hn, hx⟩ := hbelow x hx
      exact ⟨n, by omega, hx⟩

/-- The search upwards finds a base that any walk finds. -/
theorem isSubclassOf_of_within (h : catalog.isSubclassWithin base bound id = true) :
    catalog.isSubclassOf id base = true := by
  obtain ⟨steps, hsteps⟩ := exists_belowBy h
  obtain ⟨walk, hnodup, hsubset, hlength, -⟩ := hsteps.exists_walk
  have hle : walk.length ≤ catalog.classes.length := by
    have hle := (hnodup.subperm hsubset).length_le
    rwa [List.length_map] at hle
  exact isSubclassWithin_mono (hlength ▸ hle) hsteps.within

/-! ## What the search answers -/

/-- The search upwards tells exactly the classes that derive from the base. -/
theorem isSubclassOf_iff (hnodup : (catalog.classes.map (·.id)).Nodup) :
    catalog.isSubclassOf id base = true ↔ catalog.DerivesFrom id base := by
  constructor
  · intro h
    unfold isSubclassOf at h
    generalize catalog.classes.length = bound at h
    induction bound generalizing id with
    | zero =>
      obtain rfl : id = base := of_decide_eq_true h
      exact .refl
    | succ bound ih =>
      rcases isSubclassWithin_succ.1 h with rfl | ⟨c, hc, b, hb, hwithin⟩
      · exact .refl
      · obtain ⟨hmem, hid⟩ := (find?_eq_some_of_nodup hnodup).1 hc
        exact .head ⟨c, hmem, hid, hb⟩ (ih hwithin)
  · intro h
    -- any walk has some length, and then the search goes far enough
    suffices hwalk : ∃ bound, catalog.isSubclassWithin base bound id = true by
      obtain ⟨bound, hwithin⟩ := hwalk
      exact isSubclassOf_of_within hwithin
    induction h using Relation.ReflTransGen.head_induction_on with
    | refl => exact ⟨0, isSubclassWithin_self ..⟩
    | head hbase _ ih =>
      obtain ⟨bound, hwithin⟩ := ih
      obtain ⟨c, hmem, hid, hb⟩ := hbase
      have hc := (find?_eq_some_of_nodup hnodup).2 ⟨hmem, hid⟩
      exact ⟨bound + 1, isSubclassWithin_succ.2 (.inr ⟨c, hc, _, hb, hwithin⟩)⟩

theorem nodup_classes_of_ofDefinition {definition : CatalogDefinition}
    (h : ofDefinition definition = .ok catalog) : (catalog.classes.map (·.id)).Nodup :=
  nodup_of_foldlM_addClass (ofDefinition_eq_ok h).1 List.nodup_nil

end EntitySql.Catalog
