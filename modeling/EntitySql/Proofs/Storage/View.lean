import EntitySql.Proofs.Catalog.Hierarchy
import EntitySql.Proofs.Catalog.Lookup
import EntitySql.Storage.View

/-!
# The arms of a view

A view has one arm for each table that stores one of its classes: `storageMaps` keeps the first
class map for each table, loses no table and has none twice. `viewArms_eq_ok` and `viewArm_eq_ok`
say what an arm is made from. A class that has a class map is among the classes of its own view, so
that the view has an arm (`view_eq_ok`).
-/

namespace EntitySql.Catalog

variable {catalog : Catalog} {maps found : List ClassMap} {map : ClassMap} {ids : List ClassId}
  {id : ClassId} {className : ClassName} {usage : PropertyUsage} {arms : List ViewArm}
  {arm : ViewArm} {columns : List MappedColumn}

/-! ## One class map for each table -/

/-- Only the given map is added. -/
theorem mem_addTable {m : ClassMap} (h : map ∈ addTable found m) : map ∈ found ∨ map = m := by
  rw [addTable] at h
  split at h
  · exact .inl h
  · exact (List.mem_append.1 h).imp_right List.mem_singleton.1

theorem subset_addTable (found : List ClassMap) (m : ClassMap) : found ⊆ addTable found m := by
  rw [addTable]
  split
  · exact fun _ h => h
  · exact List.subset_append_left ..

/-- The table of the added map is there afterwards. -/
theorem exists_mem_addTable (found : List ClassMap) (m : ClassMap) :
    ∃ map ∈ addTable found m, map.table = m.table := by
  rw [addTable]
  split
  next h =>
    obtain ⟨map, hmap, htable⟩ := List.any_eq_true.1 h
    exact ⟨map, hmap, of_decide_eq_true htable⟩
  next => exact ⟨m, List.mem_append_right _ (List.mem_singleton_self m), rfl⟩

/-- No table has two maps. -/
theorem nodup_addTable (h : (found.map (·.table)).Nodup) (m : ClassMap) :
    ((addTable found m).map (·.table)).Nodup := by
  rw [addTable]
  split
  next => exact h
  next hnew =>
    rw [List.map_append, List.nodup_append]
    refine ⟨h, List.pairwise_singleton .., ?_⟩
    rintro table htable _ hm rfl
    obtain ⟨map, hmap, rfl⟩ := List.mem_map.1 htable
    refine hnew (List.any_eq_true.2 ⟨map, hmap, decide_eq_true ?_⟩)
    simpa using hm

/-- Only given maps are kept. -/
theorem mem_of_mem_foldl_addTable (h : map ∈ maps.foldl addTable found) :
    map ∈ found ∨ map ∈ maps := by
  induction maps generalizing found with
  | nil => exact .inl h
  | cons m maps ih =>
    rcases ih h with h | h
    · rcases mem_addTable h with h | rfl
      · exact .inl h
      · exact .inr (List.mem_cons_self ..)
    · exact .inr (List.mem_cons_of_mem _ h)

theorem subset_foldl_addTable (maps found : List ClassMap) : found ⊆ maps.foldl addTable found := by
  induction maps generalizing found with
  | nil => exact fun _ h => h
  | cons m maps ih => exact fun _ h => ih _ (subset_addTable found m h)

/-- Every table of a given map is kept. -/
theorem exists_mem_foldl_addTable (h : map ∈ maps) (found : List ClassMap) :
    ∃ m ∈ maps.foldl addTable found, m.table = map.table := by
  induction maps generalizing found with
  | nil => cases h
  | cons m maps ih =>
    rcases List.mem_cons.1 h with rfl | h
    · obtain ⟨m, hm, htable⟩ := exists_mem_addTable found map
      exact ⟨m, subset_foldl_addTable maps _ hm, htable⟩
    · exact ih h _

/-- No table is kept twice. -/
theorem nodup_foldl_addTable (maps : List ClassMap) (h : (found.map (·.table)).Nodup) :
    ((maps.foldl addTable found).map (·.table)).Nodup := by
  induction maps generalizing found with
  | nil => exact h
  | cons m maps ih => exact ih (nodup_addTable h m)

/-- The class maps of a view belong to its classes. -/
theorem mem_of_mem_storageMaps (h : map ∈ catalog.storageMaps ids) :
    ∃ id ∈ ids, catalog.classMap? id = some map := by
  rcases mem_of_mem_foldl_addTable h with h | h
  · cases h
  · exact List.mem_filterMap.1 h

/-- The table of every class of a view is among those of its class maps. -/
theorem exists_mem_storageMaps (hid : id ∈ ids) (h : catalog.classMap? id = some map) :
    ∃ m ∈ catalog.storageMaps ids, m.table = map.table :=
  exists_mem_foldl_addTable (List.mem_filterMap.2 ⟨id, hid, h⟩) []

/-- No table of a view occurs twice. -/
theorem nodup_storageMaps (catalog : Catalog) (ids : List ClassId) :
    ((catalog.storageMaps ids).map (·.table)).Nodup := by
  have hempty : (([] : List ClassMap).map (·.table)).Nodup := List.nodup_nil
  exact nodup_foldl_addTable _ hempty

/-! ## What a view is made from -/

/-- A class name stands for the instances of a class. -/
def Covers (catalog : Catalog) (className : ClassName) (id : ClassId) : Prop :=
  if className.polymorphic then catalog.DerivesFrom id className.classId
  else id = className.classId

/-- A class name covers its own class. -/
theorem covers_self (catalog : Catalog) (className : ClassName) :
    catalog.Covers className className.classId := by
  rw [Covers]
  split
  · exact .refl
  · rfl

/-- The classes of a class name are those that it covers. -/
theorem mem_of_classesOf (h : catalog.classesOf className = .ok ids) :
    id ∈ ids ↔ catalog.Covers className id := by
  rw [classesOf] at h
  rw [Covers]
  split at h
  next hpolymorphic =>
    rw [if_pos hpolymorphic]
    exact mem_of_classAndDerived h
  next hpolymorphic =>
    obtain rfl := Except.ok.inj h
    rw [if_neg hpolymorphic]
    exact List.mem_singleton

/-- An arm reads one table, and filters the classes of its rows. -/
theorem viewArm_eq_ok : catalog.viewArm className columns map = .ok arm ↔
    ∃ table filter, catalog.table map.table = .ok table
      ∧ catalog.classFilter table className.classId className.polymorphic = .ok filter
      ∧ arm =
        { table
          columns := columns.map fun column =>
            ⟨(map.column? column.access).map (·.source), column.viewName⟩
          filter := do return (← table.classIdColumn, ← filter) } := by
  constructor
  · intro h
    obtain ⟨table, htable, h⟩ := Except.bind_eq_ok.1 h
    obtain ⟨filter, hfilter, h⟩ := Except.bind_eq_ok.1 h
    exact ⟨table, filter, htable, hfilter, (Except.ok.inj h).symm⟩
  · rintro ⟨table, filter, htable, hfilter, rfl⟩
    rw [viewArm, htable]
    show (catalog.classFilter table _ _ >>= _) = _
    rw [hfilter]
    rfl

/-- There is one arm for each table in which classes of the class name are stored. -/
theorem viewArms_eq_ok : catalog.viewArms className usage = .ok arms ↔
    ∃ map ids, catalog.classMap className.classId = .ok map ∧ catalog.classesOf className = .ok ids
      ∧ (catalog.storageMaps ids).mapM (catalog.viewArm className (viewColumns map usage))
        = .ok arms := by
  rw [viewArms]
  constructor
  · intro h
    obtain ⟨map, hmap, h⟩ := Except.bind_eq_ok.1 h
    obtain ⟨ids, hids, h⟩ := Except.bind_eq_ok.1 h
    exact ⟨map, ids, hmap, hids, h⟩
  · rintro ⟨map, ids, hmap, hids, h⟩
    exact Except.bind_eq_ok.2 ⟨map, hmap, Except.bind_eq_ok.2 ⟨ids, hids, h⟩⟩

/-- A class that is stored has a view with arms. -/
theorem ne_nil_of_viewArms (h : catalog.viewArms className usage = .ok arms) : arms ≠ [] := by
  obtain ⟨map, ids, hmap, hids, h⟩ := viewArms_eq_ok.1 h
  -- the class itself is one of the classes whose tables are read
  have hself : className.classId ∈ ids := (mem_of_classesOf hids).2 (catalog.covers_self className)
  obtain ⟨m, hm, -⟩ := exists_mem_storageMaps hself (classMap_eq_ok.1 hmap)
  rintro rfl
  have hlength := (Except.mapM_eq_ok.1 h).length_eq
  rw [List.length_nil, List.length_eq_zero_iff] at hlength
  rw [hlength] at hm
  cases hm

/-- A view is made of its arms. -/
theorem view_eq_ok {view : View} :
    catalog.view className usage = .ok view ↔ catalog.viewArms className usage = .ok view.arms := by
  rw [Catalog.view]
  cases harms : catalog.viewArms className usage with
  | error error => exact ⟨nofun, nofun⟩
  | ok arms =>
    cases arms with
    | nil => exact absurd rfl (ne_nil_of_viewArms harms)
    | cons arm arms =>
      obtain ⟨other⟩ := view
      rw [Except.ok.injEq, Except.ok.injEq, View.mk.injEq]

/-- A view that cannot be made is due to the catalog. -/
theorem exists_of_view_eq_error {error : LoweringError}
    (h : catalog.view className usage = .error error) :
    ∃ cause, catalog.viewArms className usage = .error cause ∧ error = .catalog cause := by
  rw [Catalog.view] at h
  cases harms : catalog.viewArms className usage with
  | error cause =>
    rw [harms] at h
    exact ⟨cause, rfl, (Except.error.inj h).symm⟩
  | ok arms =>
    rw [harms] at h
    cases arms with
    | nil => exact absurd rfl (ne_nil_of_viewArms harms)
    | cons arm arms => cases h

end EntitySql.Catalog
