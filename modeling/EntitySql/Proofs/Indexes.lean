import EntitySql.Proofs.Anchors
import EntitySql.Proofs.Catalog.Definition

/-!
# Catalogs agree with their definitions

A definition is sound if it has no class number twice and defines all base classes and tables that
it names. Exactly these definitions have a catalog. What the catalog answers about classes, their
subclasses and their tables can be read off the definition, and it has all tables that it refers to:
no statement fails for lack of a table (`Catalog.ofDefinition_indexes`).

Class maps are compared with a definition by the pairs of class and table that both name, their
`places`.
-/

namespace EntitySql

variable {definition : CatalogDefinition} {catalog : Catalog}

namespace CatalogDefinition

/-- The numbers of the classes, in the order of the definition. -/
def classIds (definition : CatalogDefinition) : List ClassId :=
  definition.classes.map (·.definition.id)

/-- The classes that name a table, each with its table. -/
def places (definition : CatalogDefinition) : List (ClassId × String) :=
  definition.classes.filterMap fun entry => entry.table.map (entry.definition.id, ·)

/-- No class number occurs twice, and everything that is named is defined. -/
structure Sound (definition : CatalogDefinition) : Prop where
  nodup : definition.classIds.Nodup
  bases : ∀ entry ∈ definition.classes, ∀ base ∈ entry.definition.bases,
    base ∈ definition.classIds
  tables : ∀ entry ∈ definition.classes, ∀ name ∈ entry.table,
    name ∈ definition.tables.map (·.name)

instance decidableSound (definition : CatalogDefinition) : Decidable definition.Sound :=
  decidable_of_iff
    (definition.classIds.Nodup
      ∧ (∀ entry ∈ definition.classes, ∀ base ∈ entry.definition.bases,
        base ∈ definition.classIds)
      ∧ ∀ entry ∈ definition.classes, ∀ name ∈ entry.table,
        name ∈ definition.tables.map (·.name))
    ⟨fun h => ⟨h.1, h.2.1, h.2.2⟩, fun h => ⟨h.nodup, h.bases, h.tables⟩⟩

/-- The places of a definition are its classes with their tables. -/
theorem mem_places {id : ClassId} {name : String} : (id, name) ∈ definition.places ↔
    ∃ entry ∈ definition.classes, entry.definition.id = id ∧ entry.table = some name := by
  simp only [places, List.mem_filterMap, Option.map_eq_some_iff, Prod.mk.injEq]
  constructor
  · rintro ⟨entry, hentry, _, htable, hid, rfl⟩
    exact ⟨entry, hentry, hid, htable⟩
  · rintro ⟨entry, hentry, hid, htable⟩
    exact ⟨entry, hentry, name, htable, hid, rfl⟩

end CatalogDefinition

/-! ## Which definitions have a catalog -/

/-- Classes can be added if no two have the same identifier. -/
theorem exists_foldlM_addClass {entries : List ClassEntry} {found : List ClassDef} :
    (∃ classes, entries.foldlM addClass found = .ok classes) ↔
      (entries.map (·.definition.id)).Nodup
        ∧ ∀ entry ∈ entries, entry.definition.id ∉ found.map (·.id) := by
  induction entries generalizing found with
  | nil => exact ⟨fun _ => ⟨List.nodup_nil, by simp⟩, fun _ => ⟨found, rfl⟩⟩
  | cons entry entries ih =>
    have hids (id : ClassId) : id ∈ (insertClass entry.definition found).map (·.id) ↔
        id = entry.definition.id ∨ id ∈ found.map (·.id) := by
      rw [((insertClass_perm entry.definition found).map (·.id)).mem_iff]
      exact List.mem_cons
    have hstep : (∃ classes, (entry :: entries).foldlM addClass found = .ok classes) ↔
        entry.definition.id ∉ found.map (·.id)
          ∧ ∃ classes, entries.foldlM addClass (insertClass entry.definition found)
            = .ok classes := by
      simp only [List.foldlM_cons, Except.bind_eq_ok, addClass_eq_ok]
      constructor
      · rintro ⟨classes, _, ⟨hnew, rfl⟩, hrest⟩
        exact ⟨hnew, classes, hrest⟩
      · rintro ⟨hnew, classes, hrest⟩
        exact ⟨classes, _, ⟨hnew, rfl⟩, hrest⟩
    simp only [hstep, ih, hids, not_or, List.map_cons, List.nodup_cons, List.forall_mem_cons,
      List.mem_map, not_exists, not_and]
    grind

/-- A class can be mapped if its table is there. -/
theorem exists_mapClass {tables : List Table} {classes : List ClassDef} {entry : ClassEntry} :
    (∃ result, mapClass tables classes entry = .ok result) ↔
      ∀ name ∈ entry.table, name ∈ tables.map (·.name) := by
  rw [mapClass]
  cases entry.table with
  | none => exact ⟨fun _ => by simp, fun _ => ⟨none, rfl⟩⟩
  | some name =>
    have hname : (∀ x ∈ some name, x ∈ tables.map (·.name)) ↔ name ∈ tables.map (·.name) := by
      simp
    rw [hname]
    dsimp only
    cases hfind : tables.findRev? (·.name = name) with
    | none =>
      rw [List.findRev?_eq_find?_reverse] at hfind
      refine ⟨by simp, fun hmem => ?_⟩
      obtain ⟨table, htable, rfl⟩ := List.mem_map.1 hmem
      simpa using List.find?_eq_none.1 hfind table (List.mem_reverse.2 htable)
    | some table =>
      rw [List.findRev?_eq_find?_reverse] at hfind
      refine ⟨fun _ => List.mem_map.2 ⟨table, ?_, ?_⟩, fun _ => ⟨_, rfl⟩⟩
      · exact List.mem_reverse.1 (List.mem_of_find?_eq_some hfind)
      · simpa using List.find?_some hfind

namespace Catalog

/-- The classes of a catalog are those of its definition, in some order. -/
theorem perm_classes {classes : List ClassDef}
    (h : definition.classes.foldlM addClass [] = .ok classes) :
    classes.Perm (definition.classes.map (·.definition)) := by
  have hperm := perm_of_foldlM_addClass h
  rwa [List.append_nil] at hperm

theorem perm_classIds {classes : List ClassDef}
    (h : definition.classes.foldlM addClass [] = .ok classes) :
    (classes.map (·.id)).Perm definition.classIds := by
  have hperm := (perm_classes h).map (·.id)
  rwa [List.map_map] at hperm

/-- A catalog can be made of a definition exactly if that is sound. -/
theorem exists_ofDefinition :
    (∃ catalog, ofDefinition definition = .ok catalog) ↔ definition.Sound := by
  constructor
  · rintro ⟨catalog, h⟩
    obtain ⟨hclasses, hbases, -, results, hresults, -⟩ := ofDefinition_eq_ok h
    refine ⟨(exists_foldlM_addClass.1 ⟨_, hclasses⟩).1, fun entry hentry base hbase => ?_, ?_⟩
    · have hentry : entry.definition ∈ catalog.classes :=
        (perm_classes hclasses).mem_iff.2 (List.mem_map_of_mem hentry)
      exact (perm_classIds hclasses).mem_iff.1 (checkBases_eq_ok.1 (hbases _ hentry) base hbase)
    · intro entry hentry
      exact exists_mapClass.1 (Except.exists_mapM_eq_ok.1 ⟨results, hresults⟩ entry hentry)
  · intro h
    obtain ⟨classes, hclasses⟩ :
        ∃ classes, definition.classes.foldlM addClass [] = .ok classes :=
      exists_foldlM_addClass.2 ⟨h.nodup, by simp⟩
    have hbases : classes.forM (checkBases classes) = .ok () := by
      refine Except.forM_eq_ok.2 fun c hc => checkBases_eq_ok.2 fun base hbase => ?_
      obtain ⟨entry, hentry, rfl⟩ := List.mem_map.1 ((perm_classes hclasses).mem_iff.1 hc)
      exact (perm_classIds hclasses).mem_iff.2 (h.bases entry hentry base hbase)
    obtain ⟨results, hresults⟩ :
        ∃ results, definition.classes.mapM (mapClass definition.tables classes) = .ok results :=
      Except.exists_mapM_eq_ok.2 fun entry hentry => exists_mapClass.2 (h.tables entry hentry)
    refine ⟨indexed definition.tables classes (results.filterMap id), ?_⟩
    exact Except.bind_eq_ok.2 ⟨classes, hclasses, Except.bind_eq_ok.2 ⟨(), hbases,
      Except.bind_eq_ok.2 ⟨results, hresults, rfl⟩⟩⟩

/-! ## Classes -/

/-- The classes of a catalog are those of its definition. -/
theorem classDef_of_ofDefinition (h : ofDefinition definition = .ok catalog) {id : ClassId}
    {c : ClassDef} : catalog.classDef id = .ok c ↔
      ∃ entry ∈ definition.classes, entry.definition = c ∧ c.id = id := by
  have hclasses := (ofDefinition_eq_ok h).1
  have hnodup : (catalog.classes.map (·.id)).Nodup :=
    (perm_classIds hclasses).nodup_iff.2 (exists_ofDefinition.1 ⟨catalog, h⟩).nodup
  have hmem : c ∈ catalog.classes ↔ ∃ entry ∈ definition.classes, entry.definition = c := by
    rw [(perm_classes hclasses).mem_iff, List.mem_map]
  rw [classDef_eq_ok, findClass?, find?_eq_some_of_nodup hnodup, hmem]
  constructor
  · rintro ⟨⟨entry, hentry, hc⟩, hid⟩
    exact ⟨entry, hentry, hc, hid⟩
  · rintro ⟨entry, hentry, hc, hid⟩
    exact ⟨⟨entry, hentry, hc⟩, hid⟩

/-- The subclasses that a catalog knows are those that name the class as a base. -/
theorem mem_subclasses_of_ofDefinition (h : ofDefinition definition = .ok catalog)
    {id base : ClassId} : id ∈ catalog.subclasses base ↔
      ∃ entry ∈ definition.classes, entry.definition.id = id ∧ base ∈ entry.definition.bases := by
  rw [mem_subclasses, HasBase]
  simp only [(perm_classes (ofDefinition_eq_ok h).1).mem_iff, List.mem_map]
  constructor
  · rintro ⟨_, ⟨entry, hentry, rfl⟩, hid, hbase⟩
    exact ⟨entry, hentry, hid, hbase⟩
  · rintro ⟨entry, hentry, hid, hbase⟩
    exact ⟨_, ⟨entry, hentry, rfl⟩, hid, hbase⟩

/-! ## Class maps -/

/-- The classes that are stored, each with its table. -/
def places (catalog : Catalog) : List (ClassId × String) :=
  catalog.maps.map fun map => (map.classId, map.table)

theorem place_of_mapClass {tables : List Table} {classes : List ClassDef} {entry : ClassEntry}
    {result : Option ClassMap} (h : mapClass tables classes entry = .ok result) :
    (result.map fun map => (map.classId, map.table))
      = entry.table.map (entry.definition.id, ·) := by
  rw [mapClass] at h
  split at h
  next hnone =>
    obtain rfl := Except.ok.inj h
    rw [hnone]
    rfl
  next name hname =>
    rw [hname]
    split at h
    next => cases h
    next =>
      obtain rfl := Except.ok.inj h
      rfl

/-- The places of a catalog are those of its definition, in their order. -/
theorem places_of_ofDefinition (h : ofDefinition definition = .ok catalog) :
    catalog.places = definition.places := by
  obtain ⟨-, -, -, results, hresults, hmaps⟩ := ofDefinition_eq_ok h
  have hplaces := Except.map_eq_of_mapM hresults fun _ _ => place_of_mapClass
  calc catalog.places
      = (results.map (Option.map fun map => (map.classId, map.table))).filterMap id := by
        rw [places, hmaps, List.map_filterMap, List.filterMap_map]
        rfl
    _ = definition.places := by
        rw [hplaces, List.filterMap_map]
        rfl

/-- The places of a catalog are what its maps say. -/
theorem mem_places (hcatalog : catalog.Consistent) {id : ClassId} {name : String} :
    (id, name) ∈ catalog.places ↔ ∃ map, catalog.classMap id = .ok map ∧ map.table = name := by
  simp only [places, List.mem_map, Prod.mk.injEq, classMap_eq_ok]
  constructor
  · rintro ⟨map, hmap, rfl, rfl⟩
    exact ⟨map, hcatalog.classMap?_of_mem hmap, rfl⟩
  · rintro ⟨map, hmap, rfl⟩
    exact ⟨map, mem_maps_of_classMap? hmap, classId_of_classMap? hmap, rfl⟩

/-- The classes in a table are read off the places. -/
theorem classesInTable_eq (catalog : Catalog) (name : String) :
    catalog.classesInTable name = (catalog.places.filter (·.2 = name)).map (·.1) := by
  rw [classesInTable, get_tableClasses, places, List.filter_map, List.map_map]
  rfl

theorem filter_places (definition : CatalogDefinition) (name : String) :
    (definition.places.filter (·.2 = name)).map (·.1)
      = (definition.classes.filter (·.table = some name)).map (·.definition.id) := by
  rw [CatalogDefinition.places]
  induction definition.classes with
  | nil => rfl
  | cons entry entries ih =>
    cases htable : entry.table with
    | none => simpa [htable] using ih
    | some other =>
      by_cases hname : other = name
      · simpa [htable, hname] using ih
      · simpa [htable, hname] using ih

/-- What a catalog answers is what its definition says. -/
structure Indexes (catalog : Catalog) (definition : CatalogDefinition) : Prop where
  classDef : ∀ id c, catalog.classDef id = .ok c ↔
    ∃ entry ∈ definition.classes, entry.definition = c ∧ c.id = id
  /-- The classes of a table, in the order of the definition. -/
  classesInTable : ∀ name, catalog.classesInTable name
    = definition.classIds.filter fun id => (catalog.classMap id).toOption.any (·.table = name)
  nodup : ∀ name, (catalog.classesInTable name).Nodup
  /-- A class that is defined has an answer to the question for its subclasses. -/
  derivedClasses : ∀ base ∈ definition.classIds, ∃ ids, catalog.derivedClasses base = .ok ids
    ∧ ∀ id, id ∈ ids ↔ ∃ c, catalog.classDef id = .ok c ∧ base ∈ c.bases
  /-- A class has a class map exactly if its entry names a table, which is that of the map. -/
  classMap : ∀ id name, (∃ map, catalog.classMap id = .ok map ∧ map.table = name) ↔
    ∃ entry ∈ definition.classes, entry.definition.id = id ∧ entry.table = some name
  table : ∀ id map, catalog.classMap id = .ok map →
    ∃ table ∈ definition.tables, catalog.table map.table = .ok table ∧ table.name = map.table

/-- A class has a map exactly if its entry names a table. -/
theorem classMap_of_ofDefinition (h : ofDefinition definition = .ok catalog) {id : ClassId}
    {name : String} : (∃ map, catalog.classMap id = .ok map ∧ map.table = name) ↔
      ∃ entry ∈ definition.classes, entry.definition.id = id ∧ entry.table = some name := by
  rw [← mem_places (consistent_of_ofDefinition h), places_of_ofDefinition h,
    CatalogDefinition.mem_places]

/-- The classes in a table come in the order of the definition. -/
theorem classesInTable_of_ofDefinition (h : ofDefinition definition = .ok catalog)
    (name : String) : catalog.classesInTable name
      = definition.classIds.filter fun id =>
        (catalog.classMap id).toOption.any (·.table = name) := by
  have hnodup := (exists_ofDefinition.1 ⟨catalog, h⟩).nodup
  rw [classesInTable_eq, places_of_ofDefinition h, filter_places, CatalogDefinition.classIds,
    List.filter_map]
  refine congrArg _ (List.filter_congr fun entry hentry => ?_)
  have hany : (catalog.classMap entry.definition.id).toOption.any (·.table = name) = true ↔
      ∃ map, catalog.classMap entry.definition.id = .ok map ∧ map.table = name := by
    cases catalog.classMap entry.definition.id with
    | error error => simp [Except.toOption]
    | ok map => simp [Except.toOption]
  rw [Bool.eq_iff_iff, decide_eq_true_eq]
  refine Iff.trans ?_ (hany.trans (classMap_of_ofDefinition h)).symm
  constructor
  · intro htable
    exact ⟨entry, hentry, rfl, htable⟩
  · rintro ⟨other, hother, hid, htable⟩
    rwa [List.inj_on_of_nodup_map hnodup hother hentry hid] at htable

/-- The indexes of a catalog answer as its definition does. -/
theorem indexes_of_ofDefinition (h : ofDefinition definition = .ok catalog) :
    catalog.Indexes definition where
  classDef _ _ := classDef_of_ofDefinition h
  classesInTable := classesInTable_of_ofDefinition h
  nodup name := by
    rw [classesInTable_of_ofDefinition h]
    exact (exists_ofDefinition.1 ⟨catalog, h⟩).nodup.filter _
  derivedClasses base hbase := by
    obtain ⟨entry, hentry, rfl⟩ := List.mem_map.1 hbase
    have hdefined : catalog.classDef entry.definition.id = .ok entry.definition :=
      (classDef_of_ofDefinition h).2 ⟨entry, hentry, rfl, rfl⟩
    refine ⟨_, Except.bind_eq_ok.2 ⟨_, hdefined, rfl⟩, fun id => ?_⟩
    rw [mem_subclasses_of_ofDefinition h]
    simp only [classDef_of_ofDefinition h]
    constructor
    · rintro ⟨other, hother, hid, hbase⟩
      exact ⟨_, ⟨other, hother, rfl, hid⟩, hbase⟩
    · rintro ⟨_, ⟨other, hother, rfl, hid⟩, hbase⟩
      exact ⟨other, hother, hid, hbase⟩
  classMap _ _ := classMap_of_ofDefinition h
  table id map hmap := by
    have hmem := mem_maps_of_classMap? (classMap_eq_ok.1 hmap)
    obtain ⟨-, -, table, htable, -, -⟩ := (consistent_of_ofDefinition h).made map hmem
    have htables := (ofDefinition_eq_ok h).2.2.1
    exact ⟨table, htables ▸ mem_tables_of_table htable, htable, name_of_table htable⟩

end Catalog

/-! ## Statements find their tables -/

namespace Statement

variable {env : Environment} {s : State} {error : LoweringError}

/-- Rendering the output never fails for a missing table. -/
theorem isMissingTable_of_finish (h : (finish env s).1 = .error error) :
    error.isMissingTable = false := by
  rw [finish] at h
  split at h
  · obtain rfl := Except.error.inj h
    rfl
  · change (s.anchors.render s.buffer.root).mapError _ = .error error at h
    cases hrender : s.anchors.render s.buffer.root with
    | error cause =>
      rw [hrender] at h
      obtain rfl := Except.error.inj h
      rfl
    | ok sql =>
      rw [hrender] at h
      cases h

/-- Preparing a statement never fails for a missing table. -/
theorem isMissingTable_of_prepare (henv : env.HasTables) (hs : s.pending = none)
    {statement : Statement} (h : (statement.prepare env s).1 = .error error) :
    error.isMissingTable = false := by
  rw [prepare] at h
  split at h
  · obtain rfl := Except.error.inj h
    rfl
  · rw [Lowering.bind_apply] at h
    rcases hwrite : statement.write env s with ⟨cause | a, s'⟩ <;> rw [hwrite] at h
    · obtain rfl := Except.error.inj h
      obtain ⟨_, hfailure⟩ := failure_of_write hs hwrite
      exact hfailure.isMissingTable henv
    · exact isMissingTable_of_finish h

end Statement

/-- A catalog that was made of a definition has its tables. -/
theorem Catalog.hasTables_of_ofDefinition (h : ofDefinition definition = .ok catalog)
    (options : Options) (functions : Registry) :
    (Environment.of catalog options functions).HasTables := by
  refine ⟨Environment.standard_of .., fun map hmap => ?_⟩
  obtain ⟨-, -, table, htable, -, -⟩ := (consistent_of_ofDefinition h).made map hmap
  exact ⟨table, htable⟩

/-- A definition has a catalog exactly if it is sound. The catalog then agrees with the definition,
and no statement that is lowered against it lacks a table. -/
theorem Catalog.ofDefinition_indexes (definition : CatalogDefinition) :
    ((∃ catalog, ofDefinition definition = .ok catalog) ↔ definition.Sound)
      ∧ ∀ catalog, ofDefinition definition = .ok catalog →
        catalog.Indexes definition
          ∧ ∀ (statement : Statement) (options : Options) (functions : Registry) (name : String),
            (statement.lower (.of catalog options functions)).1
              ≠ .error (.catalog (.tableNotFound name)) := by
  refine ⟨exists_ofDefinition, fun catalog h => ⟨indexes_of_ofDefinition h, ?_⟩⟩
  intro statement options functions name hlower
  have henv := hasTables_of_ofDefinition h options functions
  rw [Statement.lower] at hlower
  rcases hprepare : statement.prepare (.of catalog options functions) .initial with
    ⟨error | sql, s⟩ <;> rw [hprepare] at hlower
  · obtain rfl := Except.error.inj hlower
    cases Statement.isMissingTable_of_prepare henv rfl (congrArg Prod.fst hprepare)
  · cases hlower

namespace Sample

theorem indexes_catalog : (⟨tables, classes⟩ : CatalogDefinition).Sound
    ∧ ∃ catalog, Catalog.ofDefinition ⟨tables, classes⟩ = .ok catalog
      ∧ catalog.Indexes ⟨tables, classes⟩
      ∧ ∀ (statement : Statement) (options : Options) (functions : Registry) (name : String),
        (statement.lower (.of catalog options functions)).1
          ≠ .error (.catalog (.tableNotFound name)) := by
  have hsound : (⟨tables, classes⟩ : CatalogDefinition).Sound := by decide +kernel
  obtain ⟨hexists, hindexes⟩ := Catalog.ofDefinition_indexes ⟨tables, classes⟩
  obtain ⟨catalog, hcatalog⟩ := hexists.2 hsound
  exact ⟨hsound, catalog, hcatalog, hindexes catalog hcatalog⟩

end Sample

end EntitySql
