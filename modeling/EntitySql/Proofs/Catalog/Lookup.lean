import EntitySql.Catalog.Basic
import EntitySql.Proofs.Except

/-!
# What a catalog answers

A class map or a table that a catalog answers with is one of its own, and has the number or the name
that was asked for.
-/

namespace EntitySql.Catalog

variable {catalog : Catalog} {id : ClassId} {map : ClassMap} {table : Table} {name : String}

/-- A map is found unless the class has none. -/
theorem classMap_eq_ok : catalog.classMap id = .ok map ↔ catalog.classMap? id = some map := by
  rw [classMap]
  cases catalog.classMap? id with
  | some other => simp
  | none =>
    constructor
    · intro h
      obtain ⟨c, -, hc⟩ := Except.bind_eq_ok.1 h
      cases hc
    · exact nofun

/-- A map that is found is one of the catalog. -/
theorem mem_maps_of_classMap? (h : catalog.classMap? id = some map) : map ∈ catalog.maps :=
  List.mem_of_find?_eq_some h

/-- A map that is found is that of the class. -/
theorem classId_of_classMap? (h : catalog.classMap? id = some map) : map.classId = id := by
  simpa using List.find?_some h

/-- A table is found by its name, and the last one of this name counts. -/
theorem table_eq_ok :
    catalog.table name = .ok table ↔ catalog.tables.findRev? (·.name = name) = some table := by
  rw [Catalog.table]
  cases catalog.tables.findRev? (·.name = name) with
  | some other => simp
  | none => exact ⟨nofun, nofun⟩

theorem mem_tables_of_table (h : catalog.table name = .ok table) : table ∈ catalog.tables := by
  rw [table_eq_ok, List.findRev?_eq_find?_reverse] at h
  exact List.mem_reverse.1 (List.mem_of_find?_eq_some h)

theorem name_of_table (h : catalog.table name = .ok table) : table.name = name := by
  rw [table_eq_ok, List.findRev?_eq_find?_reverse] at h
  simpa using List.find?_some h

end EntitySql.Catalog
