import EntitySql.Proofs.Catalog.Hierarchy
import EntitySql.Proofs.Catalog.Lookup
import EntitySql.Proofs.Lists
import Mathlib.Data.List.Nodup

/-!
# Catalogs made from definitions

A catalog that was made from a definition is consistent: no class has two class maps, every class
map belongs to a class and a table of the catalog, and its columns are those of the class in the
table (`Catalog.consistent_of_ofDefinition`).
-/

namespace EntitySql

variable {classes found : List ClassDef} {c : ClassDef} {entry : ClassEntry}
  {entries : List ClassEntry} {tables : List Table} {map : ClassMap} {catalog : Catalog}

/-! ## Classes -/

/-- A class is put among the others, and none is lost. -/
theorem insertClass_perm (c : ClassDef) (classes : List ClassDef) :
    (insertClass c classes).Perm (c :: classes) := by
  induction classes with
  | nil => exact .refl _
  | cons head tail ih =>
    rw [insertClass]
    split
    · exact .refl _
    · exact (ih.cons head).trans (.swap c head tail)

/-- A class that is not found is not there. -/
theorem findClass?_eq_none {id : ClassId} :
    findClass? classes id = none ↔ id ∉ classes.map (·.id) := by
  simp [findClass?]

/-- A class is added unless it is there already. -/
theorem addClass_eq_ok : addClass found entry = .ok classes ↔
    entry.definition.id ∉ found.map (·.id) ∧ insertClass entry.definition found = classes := by
  rw [addClass, ← findClass?_eq_none]
  cases hfind : findClass? found entry.definition.id with
  | some other => simp
  | none => simp

/-- The classes of a definition, in another order, behind those found before. -/
theorem perm_of_foldlM_addClass (h : entries.foldlM addClass found = .ok classes) :
    classes.Perm (entries.map (·.definition) ++ found) := by
  induction entries generalizing found with
  | nil =>
    obtain rfl := Except.ok.inj h
    exact .refl _
  | cons entry entries ih =>
    obtain ⟨next, hnext, h⟩ := Except.bind_eq_ok.1 h
    obtain ⟨-, rfl⟩ := addClass_eq_ok.1 hnext
    have hinsert := insertClass_perm entry.definition found
    exact (ih h).trans ((hinsert.append_left _).trans List.perm_middle)

/-- No class is there twice. -/
theorem nodup_of_foldlM_addClass (h : entries.foldlM addClass found = .ok classes)
    (hnodup : (found.map (·.id)).Nodup) : (classes.map (·.id)).Nodup := by
  induction entries generalizing found with
  | nil =>
    obtain rfl := Except.ok.inj h
    exact hnodup
  | cons entry entries ih =>
    obtain ⟨next, hnext, h⟩ := Except.bind_eq_ok.1 h
    obtain ⟨hnew, rfl⟩ := addClass_eq_ok.1 hnext
    refine ih h (((insertClass_perm entry.definition found).map (·.id)).nodup_iff.2 ?_)
    exact List.nodup_cons.2 ⟨hnew, hnodup⟩

/-- All bases of a class have to be there. -/
theorem checkBases_eq_ok :
    checkBases classes c = .ok () ↔ ∀ base ∈ c.bases, base ∈ classes.map (·.id) := by
  rw [checkBases]
  split
  next base hbase =>
    have hmissing := List.find?_some hbase
    rw [Option.isNone_iff_eq_none, findClass?_eq_none] at hmissing
    exact ⟨by simp, fun h => absurd (h base (List.mem_of_find?_eq_some hbase)) hmissing⟩
  next hnone =>
    refine ⟨fun _ base hbase => ?_, fun _ => rfl⟩
    have hfind := List.find?_eq_none.1 hnone base hbase
    rw [Option.isNone_iff_eq_none, findClass?_eq_none] at hfind
    exact not_not.1 hfind

/-! ## Class maps -/

/-- The map of a class is made for its table, from its properties. -/
theorem eq_of_mapClass (h : mapClass tables classes entry = .ok (some map)) :
    ∃ table, tables.findRev? (·.name = map.table) = some table
      ∧ map.classId = entry.definition.id
      ∧ map.columns = classColumns classes entry.definition table := by
  rw [mapClass] at h
  split at h
  next => cases h
  next name _ =>
    split at h
    next => cases h
    next table htable =>
      obtain rfl := Option.some.inj (Except.ok.inj h)
      exact ⟨table, htable, rfl, rfl⟩

/-- Maps are in the order of their classes. -/
theorem sublist_of_mapM_mapClass {results : List (Option ClassMap)}
    (h : entries.mapM (mapClass tables classes) = .ok results) :
    ((results.filterMap id).map (·.classId)).Sublist (entries.map (·.definition.id)) := by
  have hall := Except.mapM_eq_ok.1 h
  clear h
  induction hall with
  | nil => exact .slnil
  | @cons entry result entries results hentry _ ih =>
    cases result with
    | none => exact ih.cons _
    | some map =>
      obtain ⟨-, -, hid, -⟩ := eq_of_mapClass hentry
      show (map.classId :: (results.filterMap id).map (·.classId)).Sublist
        (entry.definition.id :: entries.map (·.definition.id))
      rw [hid]
      exact ih.cons_cons _

namespace Catalog

/-- What holds of a catalog that was made of a definition. -/
theorem ofDefinition_eq_ok {definition : CatalogDefinition}
    (h : ofDefinition definition = .ok catalog) :
    definition.classes.foldlM addClass [] = .ok catalog.classes
      ∧ (∀ c ∈ catalog.classes, checkBases catalog.classes c = .ok ())
      ∧ catalog.tables = definition.tables
      ∧ ∃ results,
        definition.classes.mapM (mapClass definition.tables catalog.classes) = .ok results
        ∧ catalog.maps = results.filterMap id := by
  obtain ⟨classes, hclasses, h⟩ := Except.bind_eq_ok.1 h
  obtain ⟨_, hbases, h⟩ := Except.bind_eq_ok.1 h
  obtain ⟨results, hresults, h⟩ := Except.bind_eq_ok.1 h
  obtain rfl := Except.ok.inj h
  exact ⟨hclasses, Except.forM_eq_ok.1 hbases, rfl, results, hresults, rfl⟩

/-- What holds of a catalog that was made from a definition. -/
structure Consistent (catalog : Catalog) : Prop where
  bases : ∀ c ∈ catalog.classes, ∀ base ∈ c.bases, base ∈ catalog.classes.map (·.id)
  nodup : (catalog.maps.map (·.classId)).Nodup
  made : ∀ map ∈ catalog.maps, ∃ c ∈ catalog.classes, ∃ table, catalog.table map.table = .ok table
    ∧ c.id = map.classId ∧ map.columns = classColumns catalog.classes c table

/-- A catalog that was made of a definition is consistent. -/
theorem consistent_of_ofDefinition {definition : CatalogDefinition}
    (h : ofDefinition definition = .ok catalog) : catalog.Consistent := by
  obtain ⟨hclasses, hbases, htables, results, hresults, hmaps⟩ := ofDefinition_eq_ok h
  -- classes are kept in the order of their numbers, class maps in the order of the definition
  have hperm := perm_of_foldlM_addClass hclasses
  rw [List.append_nil] at hperm
  refine ⟨fun c hc => checkBases_eq_ok.1 (hbases c hc), ?_, ?_⟩
  · have hnodup := nodup_of_foldlM_addClass hclasses List.nodup_nil
    rw [(hperm.map (·.id)).nodup_iff, List.map_map] at hnodup
    rw [hmaps]
    exact (sublist_of_mapM_mapClass hresults).nodup hnodup
  · intro map hmap
    rw [hmaps] at hmap
    obtain ⟨result, hresult, rfl⟩ := List.mem_filterMap.1 hmap
    obtain ⟨entry, hentry, hmade⟩ := Except.exists_of_mem_mapM hresults hresult
    obtain ⟨table, htable, hid, hcolumns⟩ := eq_of_mapClass hmade
    refine ⟨entry.definition, hperm.mem_iff.2 (List.mem_map_of_mem hentry), table, ?_, hid.symm,
      hcolumns⟩
    rw [table_eq_ok, htables]
    exact htable

/-- A class with a map is defined. -/
theorem Consistent.defined (h : catalog.Consistent) (hmap : map ∈ catalog.maps) :
    map.classId ∈ catalog.classes.map (·.id) := by
  obtain ⟨c, hc, -, -, hid, -⟩ := h.made map hmap
  exact hid ▸ List.mem_map_of_mem hc

/-- The map of a class is found. -/
theorem Consistent.classMap?_of_mem (h : catalog.Consistent) (hmap : map ∈ catalog.maps) :
    catalog.classMap? map.classId = some map :=
  (find?_eq_some_of_nodup h.nodup).2 ⟨hmap, rfl⟩

/-! ## Classes and their base classes -/

/-- The classes, each with itself and all its direct and indirect base classes. -/
def hierarchyPairs (catalog : Catalog) : List (ClassId × ClassId) :=
  catalog.classes.flatMap fun c =>
    (catalog.reachable catalog.classes.length 0 [c.id]).map fun id => (id, c.id)

/-- What a class derives from is defined. -/
theorem Consistent.base_mem (h : catalog.Consistent) {id base : ClassId}
    (hid : id ∈ catalog.classes.map (·.id)) (hbase : catalog.DerivesFrom id base) :
    base ∈ catalog.classes.map (·.id) := by
  induction hbase with
  | refl => exact hid
  | tail _ hstep _ =>
    obtain ⟨c, hc, -, hmem⟩ := hstep
    exact h.bases c hc _ hmem

/-- The pairs of the hierarchy are the classes with what they derive from. -/
theorem Consistent.mem_hierarchyPairs (h : catalog.Consistent) {id base : ClassId} :
    (id, base) ∈ catalog.hierarchyPairs ↔
      id ∈ catalog.classes.map (·.id) ∧ catalog.DerivesFrom id base := by
  have hreachable {c : ClassDef} (hc : c ∈ catalog.classes) : catalog.classAndDerived c.id
      = .ok (catalog.reachable catalog.classes.length 0 [c.id]) := by
    obtain ⟨ids, hids⟩ := exists_classAndDerived (List.mem_map_of_mem hc)
    obtain ⟨_, hdef, -⟩ := Except.bind_eq_ok.1 hids
    exact Except.bind_eq_ok.2 ⟨_, hdef, rfl⟩
  rw [hierarchyPairs, List.mem_flatMap]
  constructor
  · rintro ⟨c, hc, hmem⟩
    obtain ⟨x, hx, heq⟩ := List.mem_map.1 hmem
    obtain ⟨rfl, rfl⟩ := Prod.mk.inj heq
    exact ⟨id_mem_of_mem_classAndDerived (hreachable hc) hx,
      (mem_of_classAndDerived (hreachable hc)).1 hx⟩
  · rintro ⟨hid, hderives⟩
    obtain ⟨c, hc, rfl⟩ := List.mem_map.1 (h.base_mem hid hderives)
    exact ⟨c, hc, List.mem_map_of_mem ((mem_of_classAndDerived (hreachable hc)).2 hderives)⟩

end Catalog

end EntitySql
