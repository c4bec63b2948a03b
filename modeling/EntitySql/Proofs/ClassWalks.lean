import EntitySql.Proofs.Catalog.Acyclic

/-!
# Walks through a hierarchy

The search downwards follows the index of direct subclasses and grows the list that it goes
through. It comes to the end of the list on every hierarchy, with exactly the classes that the index
leads to. The search upwards asks the base classes of a class in turn. On a hierarchy without cycles
this has one answer for each class, and the two searches agree (`Catalog.walks_agree`).
-/

namespace EntitySql

namespace Catalog

variable {catalog : Catalog} {id base start x y : ClassId} {ids seen : List ClassId}
  {bound visited : Nat}

/-! ## Downwards -/

/-- A class is in the index as a direct subclass of another. -/
def HasDerived (catalog : Catalog) (id derived : ClassId) : Prop :=
  ∃ ids, catalog.derivedClasses id = .ok ids ∧ derived ∈ ids

/-- The direct subclasses of a defined class are found. -/
theorem derivedClasses_eq_ok (h : id ∈ catalog.classes.map (·.id)) :
    catalog.derivedClasses id = .ok (catalog.subclasses id) := by
  obtain ⟨ids, hids⟩ := exists_classAndDerived h
  obtain ⟨c, hc, -⟩ := Except.bind_eq_ok.1 hids
  exact Except.bind_eq_ok.2 ⟨c, hc, rfl⟩

/-- A class is derived from its bases, and from nothing else. -/
theorem Consistent.hasDerived_iff (h : catalog.Consistent) :
    catalog.HasDerived x y ↔ catalog.HasBase y x := by
  rw [← mem_subclasses]
  constructor
  · rintro ⟨ids, hids, hy⟩
    obtain ⟨c, hc, hids⟩ := Except.bind_eq_ok.1 hids
    obtain rfl := Except.ok.inj hids
    exact hy
  · intro hy
    obtain ⟨c, hc, -, hbase⟩ := mem_subclasses.1 hy
    exact ⟨_, derivedClasses_eq_ok (h.bases c hc x hbase), hy⟩

/-- Index entries lead down to the classes that derive from a class. -/
theorem Consistent.reaches_iff (h : catalog.Consistent) :
    Relation.ReflTransGen catalog.HasDerived x y ↔ catalog.DerivesFrom y x := by
  have hswap : catalog.HasDerived = Function.swap catalog.HasBase := by
    funext x y
    exact propext h.hasDerived_iff
  rw [hswap, Relation.reflTransGen_swap, DerivesFrom]

/-- A search downwards: the classes seen so far, the first of which were visited. -/
structure Search where
  visited : Nat
  seen : List ClassId

/-- One more class is visited, and its direct subclasses are seen. -/
inductive Visits (catalog : Catalog) : Search → Search → Prop
  | next {visited : Nat} {seen derived : List ClassId} {x : ClassId} (hx : seen[visited]? = some x)
      (hderived : catalog.derivedClasses x = .ok derived) :
      Visits catalog ⟨visited, seen⟩ ⟨visited + 1, addUnseen seen derived⟩

/-- The bounded search takes the steps of the unbounded one until nothing is left to visit. -/
theorem Reached.visits (h : catalog.Reached start visited seen) (hle : visited ≤ seen.length)
    (hbound : visited + bound = catalog.classes.length) :
    Relation.ReflTransGen catalog.Visits ⟨visited, seen⟩
      ⟨(catalog.reachable bound visited seen).length, catalog.reachable bound visited seen⟩ := by
  induction bound generalizing visited seen with
  | zero =>
    have hlength := h.length_le
    obtain rfl : visited = seen.length := by omega
    exact .refl
  | succ bound ih =>
    rw [reachable]
    split
    next hnone =>
      obtain rfl : visited = seen.length := Nat.le_antisymm hle (List.getElem?_eq_none_iff.1 hnone)
      exact .refl
    next x hx =>
      have hdefined := h.defined (List.mem_of_getElem? hx)
      have hlt := (List.getElem?_eq_some_iff.1 hx).1
      have hgrows := (prefix_addUnseen seen (catalog.subclasses x)).length_le
      exact .head (.next hx (derivedClasses_eq_ok hdefined)) (ih (h.step hx) (by omega) (by omega))

/-- What was seen stays in its place. -/
theorem prefix_reachable : seen <+: catalog.reachable bound visited seen := by
  induction bound generalizing visited seen with
  | zero => exact List.prefix_rfl
  | succ bound ih =>
    rw [reachable]
    split
    · exact List.prefix_rfl
    · exact (prefix_addUnseen seen _).trans ih

/-- The search begins with the class and ends when all classes seen were visited. -/
theorem exists_search (h : id ∈ catalog.classes.map (·.id)) :
    ∃ derived, catalog.classAndDerived id = .ok (id :: derived)
      ∧ Relation.ReflTransGen catalog.Visits ⟨0, [id]⟩ ⟨(id :: derived).length, id :: derived⟩ := by
  obtain ⟨ids, hids⟩ := exists_classAndDerived h
  obtain ⟨c, -, hreachable⟩ := Except.bind_eq_ok.1 hids
  have hvisits := (Reached.initial h).visits (Nat.zero_le _) (Nat.zero_add _)
  rw [Except.ok.inj hreachable] at hvisits
  obtain ⟨derived, rfl⟩ : [id] <+: ids := Except.ok.inj hreachable ▸ prefix_reachable
  exact ⟨derived, hids, hvisits⟩

/-! ## Upwards -/

/-- A class derives from the base if it is the base or one of its base classes derives from it. -/
def subclassWalk (base : ClassId) : Walk Bool where
  outside id := decide (id = base)
  step c derives := decide (c.id = base) || c.bases.any derives
  step_congr c derives derives' h := by
    have hany : c.bases.any derives = c.bases.any derives' := by
      rw [Bool.eq_iff_iff, List.any_eq_true, List.any_eq_true]
      exact exists_congr fun b => and_congr_right fun hb => by rw [h b hb]
    rw [hany]

/-- Looking for a base class is a walk along base classes. -/
theorem isSubclassWithin_eq :
    catalog.isSubclassWithin base bound id = (subclassWalk base).within catalog bound id := by
  induction bound generalizing id with
  | zero => rfl
  | succ bound ih =>
    have hwithin : catalog.isSubclassWithin base bound = (subclassWalk base).within catalog bound :=
      funext fun _ => ih
    rw [isSubclassWithin, Walk.within, hwithin]
    cases hfind : findClass? catalog.classes id with
    | none => exact Bool.or_false _
    | some c =>
      obtain rfl : c.id = id := by simpa using List.find?_some hfind
      rfl

/-! ## Both ways -/

/-- The search downwards from a class of a catalog ends, on any hierarchy, with the class in front
and with each class once that the index leads to. These are the classes of which the
search upwards says that they derive from it. Without cycles, it says what has to be said if a class
derives from what its base classes derive from. -/
theorem walks_agree {definition : CatalogDefinition}
    (hcatalog : ofDefinition definition = .ok catalog) (hid : id ∈ catalog.classes.map (·.id)) :
    ∃ derived, catalog.classAndDerived id = .ok (id :: derived)
      ∧ Relation.ReflTransGen catalog.Visits ⟨0, [id]⟩ ⟨(id :: derived).length, id :: derived⟩
      ∧ (id :: derived).Nodup
      ∧ (∀ x, x ∈ id :: derived ↔ Relation.ReflTransGen catalog.HasDerived id x)
      ∧ (∀ x, x ∈ id :: derived ↔ catalog.isSubclassOf x id = true)
      ∧ (catalog.Acyclic → ∀ derives,
        (subclassWalk id).Solves catalog derives ↔ derives = (catalog.isSubclassOf · id)) := by
  have hconsistent := consistent_of_ofDefinition hcatalog
  have hnodup := nodup_classes_of_ofDefinition hcatalog
  obtain ⟨derived, hderived, hsearch⟩ := exists_search hid
  refine ⟨derived, hderived, hsearch, nodup_of_classAndDerived hderived, fun x => ?_, fun x => ?_,
    fun hacyclic derives => ?_⟩
  · rw [mem_of_classAndDerived hderived, hconsistent.reaches_iff]
  · rw [mem_of_classAndDerived hderived, isSubclassOf_iff hnodup]
  · rw [Walk.solves_iff hacyclic hnodup]
    simp only [isSubclassOf, isSubclassWithin_eq]

end Catalog

namespace Sample

/-- Two classes, each the base class of the other. -/
def cycle : CatalogDefinition :=
  ⟨[], [⟨entity 1 "First" [2] [], none, true⟩, ⟨entity 2 "Second" [1] [], none, true⟩]⟩

example : (Catalog.ofDefinition cycle >>= (·.classAndDerived 2)) = .ok [2, 1] := by
  decide +kernel

/-- From the top of a diamond its bottom is seen once, and the way up leads from the bottom to the
top, but not from a class that is not defined. -/
theorem walks_agree_diamond :
    diamondCatalog.classAndDerived 1 = .ok [1, 2, 3, 4]
      ∧ (∀ x ∈ [1, 2, 3, 4], Relation.ReflTransGen diamondCatalog.HasDerived 1 x)
      ∧ ∀ derives, (Catalog.subclassWalk 1).Solves diamondCatalog derives →
        derives 4 = true ∧ derives 5 = false := by
  obtain ⟨derived, hderived, -, -, hindex, hagree, hsolves⟩ :=
    Catalog.walks_agree ofDefinition_diamond
      (show 1 ∈ diamondCatalog.classes.map (·.id) by decide +kernel)
  have hlist : diamondCatalog.classAndDerived 1 = .ok [1, 2, 3, 4] := by decide +kernel
  obtain rfl : derived = [2, 3, 4] :=
    (List.cons.inj (Except.ok.inj (hderived.symm.trans hlist))).2
  refine ⟨hlist, fun x hx => (hindex x).1 hx, fun derives hderives => ?_⟩
  obtain rfl := (hsolves acyclic_diamond derives).1 hderives
  refine ⟨(hagree 4).1 (by decide), ?_⟩
  exact Bool.eq_false_iff.2 fun h => absurd ((hagree 5).2 h) (by decide)

end Sample

end EntitySql
