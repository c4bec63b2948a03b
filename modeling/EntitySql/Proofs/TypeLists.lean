import EntitySql.Proofs.Lists
import EntitySql.Proofs.Storage.Rows
import EntitySql.Proofs.Storage.Selection

/-!
# Lists of classes

A list of classes, each alone or with its subclasses, becomes one condition on the class of a row.
`TypeFilter.accepts_iff_includes` reads the text of the condition: it accepts exactly the classes
that an entry of the list includes. What the list says twice does not show in the text. A class
occurs once among the classes that are listed alone, and not at all if another entry includes it.
-/

namespace EntitySql

/-- An entry of a list stands for a class. -/
def Catalog.Includes (catalog : Catalog) (entry : TypeEntry) (id : ClassId) : Prop :=
  if entry.polymorphic then catalog.DerivesFrom id entry.classId else id = entry.classId

namespace TypeFilter

variable {catalog : Catalog} {entries : List TypeEntry} {filter : TypeFilter} {id base : ClassId}

/-- A class that is listed alone is left out if one of its base classes is in the list together with
all subclasses. -/
def isCovered (catalog : Catalog) (entries : List TypeEntry) (id : ClassId) : Bool :=
  entries.any fun entry => entry.polymorphic && catalog.isSubclassOf id entry.classId

/-- Only an empty list makes no filter. -/
theorem ofEntries?_eq_none : ofEntries? catalog entries = none ↔ entries = [] := by
  unfold ofEntries?
  rw [List.partition_eq_filter_filter]
  dsimp only
  split_ifs with hempty
  · simpa using hempty
  · simpa using hempty

/-- The classes of a filter, from the entries of a list. -/
theorem ofEntries?_eq_some (h : ofEntries? catalog entries = some filter) :
    filter.within = (entries.eraseDups.filter (·.polymorphic)).map (·.classId)
      ∧ filter.exactly = (entries.eraseDups.filter fun entry =>
          !entry.polymorphic && !isCovered catalog entries entry.classId).map (·.classId) := by
  unfold ofEntries? at h
  rw [List.partition_eq_filter_filter] at h
  dsimp only at h
  split_ifs at h
  obtain rfl := Option.some.inj h
  refine ⟨rfl, ?_⟩
  have hcovered (entry : TypeEntry) : (entries.eraseDups.filter (·.polymorphic)).any
        (fun other => catalog.isSubclassOf entry.classId other.classId)
      = isCovered catalog entries entry.classId := by
    rw [isCovered, Bool.eq_iff_iff]
    simp [List.mem_eraseDups]
  simp only [hcovered, List.filter_filter, Function.comp_apply]
  congr 1
  exact List.filter_congr fun entry _ => Bool.and_comm ..

/-- Classes with their subclasses are those that the list has so. -/
theorem mem_within (h : ofEntries? catalog entries = some filter) :
    base ∈ filter.within ↔ ⟨base, true⟩ ∈ entries := by
  rw [(ofEntries?_eq_some h).1]
  simp only [List.mem_map, List.mem_filter, List.mem_eraseDups]
  constructor
  · rintro ⟨⟨_, polymorphic⟩, ⟨hmem, rfl⟩, rfl⟩
    exact hmem
  · exact fun hmem => ⟨_, ⟨hmem, rfl⟩, rfl⟩

/-- Classes without their subclasses are those of the list that no other entry covers. -/
theorem mem_exactly (h : ofEntries? catalog entries = some filter) :
    id ∈ filter.exactly ↔ ⟨id, false⟩ ∈ entries ∧ isCovered catalog entries id = false := by
  rw [(ofEntries?_eq_some h).2]
  simp only [List.mem_map, List.mem_filter, List.mem_eraseDups, Bool.and_eq_true, Bool.not_eq_true']
  constructor
  · rintro ⟨⟨_, polymorphic⟩, ⟨hmem, rfl, hcovered⟩, rfl⟩
    exact ⟨hmem, hcovered⟩
  · exact fun ⟨hmem, hcovered⟩ => ⟨_, ⟨hmem, rfl, hcovered⟩, rfl⟩

/-- No class is listed twice. -/
theorem nodup_exactly (h : ofEntries? catalog entries = some filter) : filter.exactly.Nodup := by
  rw [(ofEntries?_eq_some h).2]
  refine List.Nodup.map_on ?_ ((nodup_eraseDups entries).filter _)
  rintro ⟨_, polymorphic⟩ hentry ⟨_, polymorphic'⟩ hentry' rfl
  simp only [List.mem_filter, Bool.and_eq_true, Bool.not_eq_true'] at hentry hentry'
  rw [hentry.2.1, hentry'.2.1]

/-- Some list is not empty: what is left out is left out for an entry that stays. -/
theorem within_ne_nil_or_exactly_ne_nil (h : ofEntries? catalog entries = some filter) :
    filter.within ≠ [] ∨ filter.exactly ≠ [] := by
  by_contra hnone
  obtain ⟨hwithin, hexactly⟩ : filter.within = [] ∧ filter.exactly = [] := by
    simpa [not_or] using hnone
  have hpolymorphic (base : ClassId) : ⟨base, true⟩ ∉ entries := fun hmem =>
    List.ne_nil_of_mem ((mem_within h).2 hmem) hwithin
  have huncovered (id : ClassId) : isCovered catalog entries id = false := by
    refine List.any_eq_false.2 ?_
    rintro ⟨base, polymorphic⟩ hmem hcovers
    obtain ⟨rfl, -⟩ : polymorphic = true ∧ _ := by simpa using hcovers
    exact hpolymorphic base hmem
  have hsingle (id : ClassId) : ⟨id, false⟩ ∉ entries := fun hmem =>
    List.ne_nil_of_mem ((mem_exactly h).2 ⟨hmem, huncovered id⟩) hexactly
  have hentries : entries = [] := by
    refine List.eq_nil_iff_forall_not_mem.2 ?_
    rintro ⟨id, polymorphic⟩ hmem
    cases polymorphic with
    | true => exact hpolymorphic id hmem
    | false => exact hsingle id hmem
  rw [ofEntries?_eq_none.2 hentries] at h
  cases h

/-- A class is covered if it derives from one with its subclasses. -/
theorem isCovered_iff (hnodup : (catalog.classes.map (·.id)).Nodup) :
    isCovered catalog entries id = true
      ↔ ∃ base, ⟨base, true⟩ ∈ entries ∧ catalog.DerivesFrom id base := by
  simp only [isCovered, List.any_eq_true, Bool.and_eq_true, Catalog.isSubclassOf_iff hnodup]
  constructor
  · rintro ⟨⟨base, polymorphic⟩, hmem, rfl, hderives⟩
    exact ⟨base, hmem, hderives⟩
  · exact fun ⟨base, hmem, hderives⟩ => ⟨_, hmem, rfl, hderives⟩

/-- Nothing is lost with the entries that are left out. -/
theorem exists_includes_iff (h : ofEntries? catalog entries = some filter)
    (hnodup : (catalog.classes.map (·.id)).Nodup) :
    (∃ entry ∈ entries, catalog.Includes entry id)
      ↔ (∃ base ∈ filter.within, catalog.DerivesFrom id base) ∨ id ∈ filter.exactly := by
  simp only [mem_within h, mem_exactly h]
  constructor
  · rintro ⟨⟨base, polymorphic⟩, hmem, hincludes⟩
    unfold Catalog.Includes at hincludes
    cases polymorphic with
    | true => exact .inl ⟨base, hmem, hincludes⟩
    | false =>
      obtain rfl : id = base := hincludes
      by_cases hcovered : isCovered catalog entries id = true
      · exact .inl ((isCovered_iff hnodup).1 hcovered)
      · exact .inr ⟨hmem, by simpa using hcovered⟩
  · rintro (⟨base, hmem, hderives⟩ | ⟨hmem, -⟩)
    · exact ⟨_, hmem, hderives⟩
    · exact ⟨_, hmem, rfl⟩

/-- A defined class is accepted for a base class, or because it is listed alone. -/
theorem accepts_selection_iff {rows : List (ClassId × ClassId)}
    (hrows : ∀ id base, (id, base) ∈ rows ↔
      id ∈ catalog.classes.map (·.id) ∧ catalog.DerivesFrom id base)
    (hid : id ∈ catalog.classes.map (·.id)) (h : filter.within ≠ [] ∨ filter.exactly ≠ []) :
    filter.selection.accepts rows id = true
      ↔ (∃ base ∈ filter.within, catalog.DerivesFrom id base) ∨ id ∈ filter.exactly := by
  rw [accepts_selection h]
  split_ifs with hwithin
  · simp [hwithin]
  · constructor
    · rintro ⟨base, hrow, hbase | hexactly⟩
      · exact .inl ⟨base, hbase, ((hrows id base).1 hrow).2⟩
      · exact .inr hexactly
    · rintro (⟨base, hbase, hderives⟩ | hexactly)
      · exact ⟨base, (hrows id base).2 ⟨hid, hderives⟩, .inl hbase⟩
      -- a class is among its own base classes, so it has a row
      · exact ⟨id, (hrows id id).2 ⟨hid, .refl⟩, .inr hexactly⟩

/-- The condition for a list of classes, as it is read, accepts exactly the classes that an entry of
the list includes. The classes that it lists alone are distinct, and no other entry includes them.
-/
theorem accepts_iff_includes {definition : CatalogDefinition} {catalog : Catalog}
    {rows : List (ClassId × ClassId)} (hcatalog : Catalog.ofDefinition definition = .ok catalog)
    (hrows : ∀ id base, (id, base) ∈ rows ↔
      id ∈ catalog.classes.map (·.id) ∧ catalog.DerivesFrom id base)
    (entries : List TypeEntry) :
    (ofEntries? catalog entries = none ↔ entries = [])
      ∧ ∀ filter, ofEntries? catalog entries = some filter →
        ∃ selection, ClassSelection.read? filter.sql = some selection
          ∧ (∀ id ∈ catalog.classes.map (·.id),
            selection.accepts rows id = true ↔ ∃ entry ∈ entries, catalog.Includes entry id)
          ∧ selection.classNumbers.Nodup
          ∧ ∀ id : ClassId, id.text.toList ∈ selection.classNumbers →
            ∀ entry ∈ entries, entry.polymorphic = true → ¬ catalog.DerivesFrom id entry.classId := by
  have hnodup := Catalog.nodup_classes_of_ofDefinition hcatalog
  refine ⟨ofEntries?_eq_none, fun filter hfilter => ?_⟩
  have hsome := within_ne_nil_or_exactly_ne_nil hfilter
  refine ⟨filter.selection, read?_sql filter, fun id hid => ?_, ?_, ?_⟩
  · rw [accepts_selection_iff hrows hid hsome, exists_includes_iff hfilter hnodup]
  · rw [classNumbers_selection hsome]
    exact (nodup_exactly hfilter).map fun _ _ h => ClassId.text_inj.1 h
  · rintro id hlisted ⟨base, polymorphic⟩ hentry rfl hderives
    rw [classNumbers_selection hsome, List.mem_map] at hlisted
    obtain ⟨id', hexactly, htext⟩ := hlisted
    obtain rfl := ClassId.text_inj.1 htext
    have hcovered := (isCovered_iff hnodup).2 ⟨base, hentry, hderives⟩
    rw [((mem_exactly hfilter).1 hexactly).2] at hcovered
    cases hcovered

end TypeFilter

namespace Sample

/-- Sensors twice, once alone and once as physical elements, and widgets alone. -/
def devices : List TypeEntry :=
  [⟨13, false⟩, ⟨20, false⟩, ⟨11, true⟩, ⟨20, false⟩]

/-- The condition for these classes has no number twice, and none for sensors. -/
theorem accepts_devices : ∃ filter, TypeFilter.ofEntries? catalog devices = some filter
    ∧ filter.sql = "IN (SELECT ClassId FROM [main].ec_cache_ClassHierarchy"
      ++ " WHERE BaseClassId IN (11) OR ClassId IN (20))"
    ∧ ∃ selection, ClassSelection.read? filter.sql = some selection
      ∧ (∀ id ∈ catalog.classes.map (·.id), selection.accepts catalog.hierarchyPairs id = true
        ↔ ∃ entry ∈ devices, catalog.Includes entry id)
      ∧ selection.classNumbers = ["20".toList] := by
  obtain ⟨-, hfilter⟩ := TypeFilter.accepts_iff_includes ofDefinition_catalog
    (fun _ _ => (Catalog.consistent_of_ofDefinition ofDefinition_catalog).mem_hierarchyPairs) devices
  have hsome : TypeFilter.ofEntries? catalog devices = some ⟨[11], [20]⟩ := by decide +kernel
  obtain ⟨selection, hread, haccepts, -, -⟩ := hfilter _ hsome
  refine ⟨_, hsome, by decide +kernel, selection, hread, haccepts, ?_⟩
  have hselection : ClassSelection.read? (TypeFilter.sql ⟨[11], [20]⟩)
      = some (TypeFilter.selection ⟨[11], [20]⟩) := by decide +kernel
  obtain rfl := Option.some.inj (hread.symm.trans hselection)
  decide +kernel

end Sample

end EntitySql
