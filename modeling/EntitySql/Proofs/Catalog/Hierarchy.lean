import EntitySql.Catalog.Hierarchy
import EntitySql.Proofs.Except
import Mathlib.Data.List.Perm.Subperm
import Mathlib.Logic.Relation

/-!
# The classes of a hierarchy

`DerivesFrom` is the relation between a class and its direct and indirect base classes, itself
included. The search downwards, `classAndDerived`, finds exactly the classes that derive from a
class, each once (`mem_of_classAndDerived`, `nodup_of_classAndDerived`). No assumption on the
hierarchy is needed: on a cycle the search ends as well.

The search is followed by its invariant `Reached`. Its bound is sufficient because what it has seen
are different classes of the catalog, and one of them is visited in each step.
-/

namespace EntitySql.Catalog

variable {catalog : Catalog} {id start x y : ClassId} {ids seen : List ClassId}

/-- A class names another one as its base. -/
def HasBase (catalog : Catalog) (id base : ClassId) : Prop :=
  ∃ c ∈ catalog.classes, c.id = id ∧ base ∈ c.bases

/-- A class is the base or one of its direct or indirect subclasses. -/
def DerivesFrom (catalog : Catalog) : ClassId → ClassId → Prop :=
  Relation.ReflTransGen catalog.HasBase

/-- The direct subclasses of a class are those that name it as a base. -/
theorem mem_subclasses : y ∈ catalog.subclasses x ↔ catalog.HasBase y x := by
  rw [subclasses, catalog.get_derived, HasBase, List.mem_flatMap]
  constructor
  · rintro ⟨c, hc, hy⟩
    obtain ⟨base, hbase, rfl⟩ := List.mem_map.1 hy
    obtain ⟨hmem, heq⟩ := List.mem_filter.1 hbase
    exact ⟨c, hc, rfl, of_decide_eq_true heq ▸ hmem⟩
  · rintro ⟨c, hc, rfl, hbase⟩
    exact ⟨c, hc, List.mem_map.2 ⟨x, List.mem_filter.2 ⟨hbase, decide_eq_true rfl⟩, rfl⟩⟩

/-! ## Adding what is not seen yet -/

theorem addUnseen_cons (seen : List ClassId) (x : ClassId) (ids : List ClassId) :
    addUnseen seen (x :: ids) = addUnseen (if x ∈ seen then seen else seen ++ [x]) ids :=
  rfl

/-- What was seen stays in its place. -/
theorem prefix_addUnseen (seen ids : List ClassId) : seen <+: addUnseen seen ids := by
  induction ids generalizing seen with
  | nil => exact List.prefix_rfl
  | cons x ids ih =>
    rw [addUnseen_cons]
    split
    · exact ih seen
    · exact (List.prefix_append ..).trans (ih (seen ++ [x]))

theorem mem_addUnseen : y ∈ addUnseen seen ids ↔ y ∈ seen ∨ y ∈ ids := by
  induction ids generalizing seen with
  | nil => simp [addUnseen]
  | cons x ids ih =>
    rw [addUnseen_cons, ih, List.mem_cons]
    split
    next hx =>
      constructor
      · exact Or.imp_right Or.inr
      · rintro (hy | rfl | hy)
        · exact .inl hy
        · exact .inl hx
        · exact .inr hy
    next => rw [List.mem_append, List.mem_singleton, or_assoc]

/-- Nothing is seen twice. -/
theorem nodup_addUnseen (h : seen.Nodup) : (addUnseen seen ids).Nodup := by
  induction ids generalizing seen with
  | nil => exact h
  | cons x ids ih =>
    rw [addUnseen_cons]
    split
    next => exact ih h
    next hx => exact ih (List.nodup_append.2 ⟨h, List.pairwise_singleton .., by grind⟩)

/-! ## The search -/

/-- What holds during the search for the subclasses of `start`, after the first `visited` of the
classes seen were visited. -/
structure Reached (catalog : Catalog) (start : ClassId) (visited : Nat) (seen : List ClassId) :
    Prop where
  nodup : seen.Nodup
  defined : seen ⊆ catalog.classes.map (·.id)
  start_mem : start ∈ seen
  sound : ∀ x ∈ seen, catalog.DerivesFrom x start
  done : ∀ x ∈ seen.take visited, ∀ y ∈ catalog.subclasses x, y ∈ seen

namespace Reached

variable {visited bound : Nat}

/-- At the start, only the class itself is seen. -/
theorem initial (h : id ∈ catalog.classes.map (·.id)) : catalog.Reached id 0 [id] := by
  refine ⟨List.pairwise_singleton _ id, ?_, List.mem_singleton_self id, ?_, nofun⟩
  · exact List.cons_subset.2 ⟨h, List.nil_subset _⟩
  · intro x hx
    rw [List.mem_singleton.1 hx]
    exact .refl

/-- Visiting the next class keeps the invariant. -/
theorem step (h : catalog.Reached start visited seen) (hx : seen[visited]? = some x) :
    catalog.Reached start (visited + 1) (addUnseen seen (catalog.subclasses x)) := by
  have hmem : x ∈ seen := List.mem_of_getElem? hx
  refine ⟨nodup_addUnseen h.nodup, ?_, mem_addUnseen.2 (.inl h.start_mem), ?_, ?_⟩
  · intro y hy
    rcases mem_addUnseen.1 hy with hy | hy
    · exact h.defined hy
    · obtain ⟨c, hc, rfl, -⟩ := mem_subclasses.1 hy
      exact List.mem_map_of_mem hc
  · intro y hy
    rcases mem_addUnseen.1 hy with hy | hy
    · exact h.sound y hy
    · exact .head (mem_subclasses.1 hy) (h.sound x hmem)
  · -- what was visited before stays in front, and the class visited now comes next
    obtain ⟨added, hadded⟩ := prefix_addUnseen seen (catalog.subclasses x)
    obtain ⟨hlt, -⟩ := List.getElem?_eq_some_iff.1 hx
    intro z hz y hy
    rw [← hadded, List.take_append_of_le_length (by omega), List.take_add_one, hx,
      Option.toList_some, List.mem_append, List.mem_singleton] at hz
    rcases hz with hz | rfl
    · exact mem_addUnseen.2 (.inl (h.done z hz y hy))
    · exact mem_addUnseen.2 (.inr hy)

/-- No more classes are seen than there are. -/
theorem length_le (h : catalog.Reached start visited seen) :
    seen.length ≤ catalog.classes.length := by
  have hlength := (h.nodup.subperm h.defined).length_le
  rwa [List.length_map] at hlength

/-- At the end of the search, all classes seen were visited. -/
theorem run (h : catalog.Reached start visited seen)
    (hbound : visited + bound = catalog.classes.length) :
    ∃ visited', (catalog.reachable bound visited seen).length ≤ visited'
      ∧ catalog.Reached start visited' (catalog.reachable bound visited seen) := by
  induction bound generalizing visited seen with
  | zero =>
    -- as many classes were visited as there are, and those seen are different classes
    have hlength := h.length_le
    rw [← hbound] at hlength
    exact ⟨visited, hlength, h⟩
  | succ bound ih =>
    rw [reachable]
    split
    next hnone => exact ⟨visited, List.getElem?_eq_none_iff.1 hnone, h⟩
    next x hx => exact ih (h.step hx) (by omega)

end Reached

/-! ## What the search finds -/

theorem classDef_eq_ok {c : ClassDef} :
    catalog.classDef id = .ok c ↔ findClass? catalog.classes id = some c := by
  rw [classDef]
  cases findClass? catalog.classes id with
  | some other => simp
  | none => exact ⟨nofun, nofun⟩

theorem id_mem_of_classDef {c : ClassDef} (h : catalog.classDef id = .ok c) :
    id ∈ catalog.classes.map (·.id) := by
  have hfind := classDef_eq_ok.1 h
  have hid : c.id = id := by simpa using List.find?_some hfind
  exact hid ▸ List.mem_map_of_mem (List.mem_of_find?_eq_some hfind)

/-- The subclasses of every class are found. -/
theorem exists_classAndDerived (h : id ∈ catalog.classes.map (·.id)) :
    ∃ ids, catalog.classAndDerived id = .ok ids := by
  obtain ⟨c, hc, rfl⟩ := List.mem_map.1 h
  cases hfind : findClass? catalog.classes c.id with
  | none => exact absurd (decide_eq_true rfl) (List.find?_eq_none.1 hfind c hc)
  | some other => exact ⟨_, Except.bind_eq_ok.2 ⟨other, classDef_eq_ok.2 hfind, rfl⟩⟩

/-- The search ends with a list that has the start and, with each class, all its subclasses. -/
theorem reached_of_classAndDerived (h : catalog.classAndDerived id = .ok ids) :
    ∃ visited, ids.length ≤ visited ∧ catalog.Reached id visited ids := by
  obtain ⟨c, hc, hids⟩ := Except.bind_eq_ok.1 h
  obtain rfl := Except.ok.inj hids
  exact (Reached.initial (id_mem_of_classDef hc)).run (Nat.zero_add _)

/-- The search finds exactly the classes that derive from the start. -/
theorem mem_of_classAndDerived (h : catalog.classAndDerived id = .ok ids) :
    x ∈ ids ↔ catalog.DerivesFrom x id := by
  obtain ⟨visited, hlength, hreached⟩ := reached_of_classAndDerived h
  constructor
  · exact hreached.sound x
  · intro hx
    -- downwards from the start: a subclass of a class that was found was found with it
    induction hx using Relation.ReflTransGen.head_induction_on with
    | refl => exact hreached.start_mem
    | head hbase _ ih =>
      have hdone := hreached.done
      rw [List.take_of_length_le hlength] at hdone
      exact hdone _ ih _ (mem_subclasses.2 hbase)

/-- The search finds each class once. -/
theorem nodup_of_classAndDerived (h : catalog.classAndDerived id = .ok ids) : ids.Nodup := by
  obtain ⟨visited, -, hreached⟩ := reached_of_classAndDerived h
  exact hreached.nodup

/-- Only defined classes are found. -/
theorem id_mem_of_mem_classAndDerived (h : catalog.classAndDerived id = .ok ids) (hx : x ∈ ids) :
    x ∈ catalog.classes.map (·.id) := by
  obtain ⟨visited, -, hreached⟩ := reached_of_classAndDerived h
  exact hreached.defined hx

end EntitySql.Catalog
