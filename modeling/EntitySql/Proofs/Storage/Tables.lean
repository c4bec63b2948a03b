import EntitySql.Proofs.Storage.View

/-!
# Tables that are there

A catalog can name a table in a class map without having it. `FindsTables` says of an answer that it
is not the failure to find a table. Only the look-up of a table can fail in this way, so every
question to a catalog that has the tables of its class maps is answered so, and every view of it is.
-/

namespace EntitySql

/-- The failure is that a table is not in the catalog. -/
def CatalogError.isMissingTable : CatalogError → Bool
  | .tableNotFound _ => true
  | .classNotFound _ | .classNameNotFound _ | .classNotMapped _ | .propertyNotFound ..
  | .duplicateClass _ | .undefinedBase .. | .unreadable => false

/-- The answer is not that a table is missing. -/
def FindsTables {α : Type} (answer : Except CatalogError α) : Prop :=
  ∀ error, answer = .error error → error.isMissingTable = false

namespace FindsTables

variable {α β : Type} {answer : Except CatalogError α} {next : α → Except CatalogError β}

theorem ok (a : α) : FindsTables (.ok a) := by
  intro error h
  cases h

/-- An error about something else is none about a missing table. -/
theorem error {error : CatalogError} (h : error.isMissingTable = false) :
    FindsTables (.error error : Except CatalogError α) := by
  rintro _ ⟨⟩
  exact h

/-- The rule for one answer after another. -/
theorem bind (h : FindsTables answer) (hnext : ∀ a, answer = .ok a → FindsTables (next a)) :
    FindsTables (answer >>= next) := by
  cases answer with
  | error cause => exact error (h cause rfl)
  | ok a => exact hnext a rfl

/-- The rule for answers for a list. -/
theorem mapM {l : List β} {step : β → Except CatalogError α}
    (h : ∀ b ∈ l, FindsTables (step b)) : FindsTables (l.mapM step) := by
  induction l with
  | nil => exact ok []
  | cons b l ih =>
    rw [List.mapM_cons]
    refine (h b (List.mem_cons_self ..)).bind fun a _ => ?_
    exact (ih fun x hx => h x (List.mem_cons_of_mem _ hx)).bind fun _ _ => ok _

end FindsTables

namespace Catalog

/-- The tables of all class maps are in the catalog. -/
def HasTables (catalog : Catalog) : Prop :=
  ∀ map ∈ catalog.maps, ∃ table, catalog.table map.table = .ok table

variable (catalog : Catalog) (id : ClassId)

/-- Looking up a class never fails for a missing table. -/
theorem findsTables_classDef : FindsTables (catalog.classDef id) := by
  rw [classDef]
  split
  · exact .ok _
  · exact .error rfl

/-- Looking up the map of a class never fails for a missing table. -/
theorem findsTables_classMap : FindsTables (catalog.classMap id) := by
  rw [classMap]
  split
  · exact .ok _
  · exact (catalog.findsTables_classDef id).bind fun _ _ => .error rfl

/-- Looking for subclasses never fails for a missing table. -/
theorem findsTables_classAndDerived : FindsTables (catalog.classAndDerived id) :=
  (catalog.findsTables_classDef id).bind fun _ _ => .ok _

/-- Looking for the classes of a class name never fails for a missing table. -/
theorem findsTables_classesOf (c : ClassName) : FindsTables (catalog.classesOf c) := by
  rw [classesOf]
  split
  · exact catalog.findsTables_classAndDerived c.classId
  · exact .ok _

/-- Making a filter on classes never fails for a missing table. -/
theorem findsTables_classFilter (table : Table) (polymorphic : Bool) :
    FindsTables (catalog.classFilter table id polymorphic) := by
  rw [classFilter]
  split
  · exact .ok _
  · split
    · exact .ok _
    · refine .bind ?_ fun _ _ => .ok _
      exact (catalog.findsTables_classAndDerived id).bind fun _ _ => .ok _

variable {catalog id}

/-- The table of a map is found. -/
theorem HasTables.table {map : ClassMap} (h : catalog.HasTables)
    (hmap : catalog.classMap id = .ok map) : ∃ table, catalog.table map.table = .ok table :=
  h map (mem_maps_of_classMap? (classMap_eq_ok.1 hmap))

/-- The tables of a view are found. -/
theorem HasTables.findsTables_viewArms (h : catalog.HasTables) (c : ClassName)
    (usage : PropertyUsage) : FindsTables (catalog.viewArms c usage) := by
  refine (catalog.findsTables_classMap c.classId).bind fun map _ => ?_
  refine (catalog.findsTables_classesOf c).bind fun ids _ => .mapM fun m hm => ?_
  obtain ⟨id, -, hid⟩ := mem_of_mem_storageMaps hm
  obtain ⟨table, htable⟩ := h m (mem_maps_of_classMap? hid)
  rw [viewArm, htable]
  exact (catalog.findsTables_classFilter c.classId table c.polymorphic).bind fun _ _ => .ok _

end Catalog

end EntitySql
