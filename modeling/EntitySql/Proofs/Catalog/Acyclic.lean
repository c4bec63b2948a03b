import EntitySql.Proofs.Catalog.Subclasses
import EntitySql.Sample
import Mathlib.Data.Finset.Card

/-!
# Hierarchies without cycles

If no class derives from one of its own base classes, then what is said of a class in terms of its
base classes is said of all classes (`Acyclic.induction`), and a walk up the base classes ends by
itself, within the height of the class where it begins (`Walk.within_eq`). The number of classes is
thus a bound that changes nothing (`Walk.solves_iff`).
-/

namespace EntitySql

namespace Catalog

variable {catalog : Catalog} {id base : ClassId}

/-- No class is an indirect base class of itself. -/
def Acyclic (catalog : Catalog) : Prop :=
  ∀ id, ¬Relation.TransGen catalog.HasBase id id

/-- There is no cycle if no base class of a class is found to derive from it. -/
theorem acyclic_of_isSubclassOf (hnodup : (catalog.classes.map (·.id)).Nodup)
    (h : ∀ c ∈ catalog.classes, ∀ base ∈ c.bases, catalog.isSubclassOf base c.id = false) :
    catalog.Acyclic := by
  intro id hcycle
  obtain ⟨base, ⟨c, hc, rfl, hbase⟩, hderives⟩ := Relation.TransGen.head'_iff.1 hcycle
  have hfound := (isSubclassOf_iff hnodup).2 hderives
  rw [h c hc base hbase] at hfound
  cases hfound

/-! ## Heights -/

/-- The classes that a class derives from, itself included. -/
def ancestry (catalog : Catalog) (id : ClassId) : Finset ClassId :=
  (catalog.classes.map (·.id)).toFinset.filter fun base => catalog.isSubclassOf id base

/-- The ancestry of a class is what it derives from. -/
theorem mem_ancestry (hnodup : (catalog.classes.map (·.id)).Nodup) :
    base ∈ catalog.ancestry id ↔
      base ∈ catalog.classes.map (·.id) ∧ catalog.DerivesFrom id base := by
  rw [ancestry, Finset.mem_filter, List.mem_toFinset, isSubclassOf_iff hnodup]

/-- The number of classes that a class derives from. -/
def height (catalog : Catalog) (id : ClassId) : Nat :=
  (catalog.ancestry id).card

/-- No class is higher than there are classes. -/
theorem height_le (catalog : Catalog) (id : ClassId) : catalog.height id ≤ catalog.classes.length :=
  calc catalog.height id
    _ ≤ (catalog.classes.map (·.id)).toFinset.card := Finset.card_filter_le ..
    _ ≤ (catalog.classes.map (·.id)).length := List.toFinset_card_le _
    _ = catalog.classes.length := List.length_map _

theorem height_pos (hnodup : (catalog.classes.map (·.id)).Nodup)
    (hid : id ∈ catalog.classes.map (·.id)) : 0 < catalog.height id :=
  Finset.card_pos.2 ⟨id, (mem_ancestry hnodup).2 ⟨hid, .refl⟩⟩

namespace Acyclic

/-- A class derives from all classes that its base classes derive from, and from itself besides. -/
theorem height_lt (h : catalog.Acyclic) (hnodup : (catalog.classes.map (·.id)).Nodup)
    (hbase : catalog.HasBase id base) : catalog.height base < catalog.height id := by
  have hsubset : catalog.ancestry base ⊆ catalog.ancestry id := by
    intro x hx
    obtain ⟨hdefined, hderives⟩ := (mem_ancestry hnodup).1 hx
    exact (mem_ancestry hnodup).2 ⟨hdefined, .head hbase hderives⟩
  refine Finset.card_lt_card ((Finset.ssubset_iff_of_subset hsubset).2 ⟨id, ?_, ?_⟩)
  · obtain ⟨c, hc, rfl, -⟩ := hbase
    exact (mem_ancestry hnodup).2 ⟨List.mem_map_of_mem hc, .refl⟩
  · intro hmem
    exact h id (Relation.TransGen.head' hbase ((mem_ancestry hnodup).1 hmem).2)

/-- What passes from all base classes of a class to the class holds of all classes. -/
theorem induction (h : catalog.Acyclic) (hnodup : (catalog.classes.map (·.id)).Nodup)
    {P : ClassId → Prop} (hstep : ∀ id, (∀ base, catalog.HasBase id base → P base) → P id)
    (id : ClassId) : P id := by
  induction hheight : catalog.height id using Nat.strong_induction_on generalizing id with
  | h n ih =>
    refine hstep id fun base hbase => ih (catalog.height base) ?_ base rfl
    exact hheight ▸ h.height_lt hnodup hbase

end Acyclic

end Catalog

/-! ## Walks -/

/-- A walk up the base classes: the value of a class is made from those of its base classes. -/
structure Walk (α : Type) where
  /-- The value where no class is defined. -/
  outside : ClassId → α
  step : ClassDef → (ClassId → α) → α
  step_congr : ∀ c value value', (∀ base ∈ c.bases, value base = value' base) →
    step c value = step c value'

namespace Walk

variable {α : Type} {w : Walk α} {catalog : Catalog} {id : ClassId} {n m : Nat}

/-- Each value is made from those of the base classes, however far the walk goes. -/
def Solves (w : Walk α) (catalog : Catalog) (value : ClassId → α) : Prop :=
  ∀ id, value id = (findClass? catalog.classes id).elim (w.outside id) (w.step · value)

/-- The values over walks of bounded length. -/
def within (w : Walk α) (catalog : Catalog) : Nat → ClassId → α
  | 0, id => w.outside id
  | bound + 1, id =>
    (findClass? catalog.classes id).elim (w.outside id) (w.step · (w.within catalog bound))

/-- A walk ends where a class is not defined. -/
theorem within_of_undefined (h : id ∉ catalog.classes.map (·.id)) :
    w.within catalog n id = w.outside id := by
  cases n with
  | zero => rfl
  | succ n => rw [within, findClass?_eq_none.2 h, Option.elim_none]

/-- A walk ends within the height of the class where it begins. -/
theorem within_eq (hacyclic : catalog.Acyclic) (hnodup : (catalog.classes.map (·.id)).Nodup)
    (hn : catalog.height id ≤ n) (hm : catalog.height id ≤ m) :
    w.within catalog n id = w.within catalog m id := by
  induction n generalizing m id with
  | zero =>
    have hundefined : id ∉ catalog.classes.map (·.id) := fun h => by
      have hpos := Catalog.height_pos hnodup h
      omega
    rw [within_of_undefined hundefined, within_of_undefined hundefined]
  | succ n ih =>
    cases hfind : findClass? catalog.classes id with
    | none =>
      have hundefined := findClass?_eq_none.1 hfind
      rw [within_of_undefined hundefined, within_of_undefined hundefined]
    | some c =>
      obtain ⟨hc, rfl⟩ := (find?_eq_some_of_nodup hnodup).1 hfind
      have hpos := Catalog.height_pos hnodup (List.mem_map_of_mem hc)
      obtain ⟨m, rfl⟩ : ∃ k, m = k + 1 := ⟨m - 1, by omega⟩
      rw [within, within, hfind]
      refine w.step_congr c _ _ fun base hbase => ?_
      have hlt := hacyclic.height_lt hnodup ⟨c, hc, rfl, hbase⟩
      exact ih (by omega) (by omega)

/-- Without cycles, the values over walks as long as there are classes are the only values that are
made from those of the base classes. -/
theorem solves_iff (hacyclic : catalog.Acyclic) (hnodup : (catalog.classes.map (·.id)).Nodup)
    {value : ClassId → α} :
    w.Solves catalog value ↔ value = w.within catalog catalog.classes.length := by
  have hsolves : w.Solves catalog (w.within catalog catalog.classes.length) := by
    intro id
    have hle := catalog.height_le id
    exact within_eq hacyclic hnodup hle (Nat.le_succ_of_le hle)
  constructor
  · intro hvalue
    funext id
    induction id using hacyclic.induction hnodup with
    | hstep id ih =>
      rw [hvalue id, hsolves id]
      cases hfind : findClass? catalog.classes id with
      | none => rfl
      | some c =>
        obtain ⟨hc, hid⟩ := (find?_eq_some_of_nodup hnodup).1 hfind
        exact w.step_congr c _ _ fun base hbase => ih base ⟨c, hc, hid, hbase⟩
  · rintro rfl
    exact hsolves

end Walk

namespace Sample

/-- Two classes with a common base class, and a class that derives from both and names one of them
twice. -/
def diamond : CatalogDefinition :=
  ⟨[.named "ts_Part"],
    [⟨entity 4 "Part" [2, 3, 2] [⟨"Weight", .primitive .double⟩], some "ts_Part", true⟩,
      ⟨entity 3 "Measured" [1] [⟨"SIZE", .primitive .long⟩, ⟨"Unit", .primitive .string⟩], none, true⟩,
      ⟨entity 2 "Labelled" [1] [⟨"label", .primitive .integer⟩], none, true⟩,
      ⟨entity 1 "Thing" [] [⟨"Label", .primitive .string⟩, ⟨"Size", .primitive .double⟩], none, true⟩]⟩

/-- The catalog of the classes that form a diamond. -/
def diamondCatalog : Catalog :=
  match Catalog.ofDefinition diamond with
  | .ok catalog => catalog
  | .error _ => .indexed [] [] []

theorem ofDefinition_diamond : Catalog.ofDefinition diamond = .ok diamondCatalog := by
  obtain ⟨made, hmade⟩ := Except.exists_eq_ok (x := Catalog.ofDefinition diamond) (by decide +kernel)
  rw [diamondCatalog, hmade]

theorem acyclic_diamond : diamondCatalog.Acyclic :=
  Catalog.acyclic_of_isSubclassOf (Catalog.nodup_classes_of_ofDefinition ofDefinition_diamond)
    (by decide +kernel)

end Sample

end EntitySql
