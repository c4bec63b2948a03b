import EntitySql.Proofs.Catalog.Columns
import EntitySql.Proofs.Lowering.InsertText
import EntitySql.Proofs.Parameters.Names
import EntitySql.Proofs.Storage.Rows

/-!
# Columns that are assigned

Insertions and updates write to the columns of the properties that they set. An insertion writes one
group of columns for each property, with as many values, and the column for the class at the end
unless it is set (`Insert.exists_parts_length_eq`). What is written to are columns of the table of
the class, except for the class itself in a table that has no column for it: there the number of the
class stands in the place of a column (`assigns_of_lower`).
-/

namespace EntitySql

open Lowering
open Sql (bracketed)

/-! ## Columns of the table -/

namespace ClassMap

variable {map : ClassMap} {table : Table} {column : MappedColumn} {names : List PropertyName}
  {columns more : List String}

/-- The text is the name of a column of the table, in brackets. -/
def Stores (map : ClassMap) (text : String) : Prop :=
  ∃ column ∈ map.columns, ∃ name, column.source = .column name ∧ text = bracketed name

/-- The number of a class is no column. -/
theorem not_stores_text (id : ClassId) : ¬ map.Stores id.text := by
  rintro ⟨_, -, name, -, htext⟩
  have hmem : '[' ∈ id.text.toList := by
    rw [htext, bracketed]
    simp
  exact absurd (isDigit_of_mem_toString '[' hmem) (by decide)

/-- A map stores what comes from a column. -/
theorem stores_target_iff (h : column ∈ map.columns) :
    map.Stores column.source.target ↔ ∃ name, column.source = .column name := by
  constructor
  · intro hstores
    cases hsource : column.source with
    | column name => exact ⟨name, rfl⟩
    | classId id =>
      rw [hsource] at hstores
      exact absurd hstores (not_stores_text id)
  · rintro ⟨name, hsource⟩
    exact ⟨column, h, name, hsource, by rw [hsource, ColumnSource.target]⟩

/-- What is assigned to for some properties: columns of the table and the number of the class. The
number only occurs if the class is set and the table has no column for it. -/
structure Assigns (map : ClassMap) (table : Table) (names : List PropertyName)
    (columns : List String) : Prop where
  cases : ∀ x ∈ columns, map.Stores x ∨ x = map.classId.text
  stores_iff : (∀ x ∈ columns, map.Stores x) ↔
    (setsClass names = true → table.classIdColumn ≠ none)

/-- Further columns may be assigned. -/
theorem Assigns.append (h : map.Assigns table names columns) (hmore : ∀ x ∈ more, map.Stores x) :
    map.Assigns table names (columns ++ more) where
  cases := List.forall_mem_append.2 ⟨h.cases, fun x hx => .inl (hmore x hx)⟩
  stores_iff := by
    rw [← h.stores_iff, List.forall_mem_append]
    exact and_iff_left hmore

end ClassMap

/-! ## Targets -/

namespace Catalog

variable {catalog : Catalog} {definition : CatalogDefinition} {id : ClassId} {map : ClassMap}
  {table : Table} {column : MappedColumn} {p : PropertyName} {names : List PropertyName} {x : String}

/-- The targets of a property are its columns in the map. -/
theorem mem_targets (hmap : catalog.classMap id = .ok map) (hp : p.target = .ofClass id) :
    x ∈ p.targets catalog ↔ ∃ column ∈ map.property p.access, column.source.target = x := by
  simp only [PropertyName.targets, hp, hmap, List.mem_map]

section

variable (hcatalog : ofDefinition definition = .ok catalog)
  (hmap : catalog.classMap id = .ok map) (htable : catalog.table map.table = .ok table)

include hcatalog hmap htable

/-- All columns of a class but the one for the class itself are columns of the table. -/
theorem exists_columns :
    ∃ first rest, map.columns = first :: ⟨"ECClassId", "ECClassId", classSource id table⟩ :: rest
      ∧ ∀ column ∈ first :: rest, ∃ name, column.source = .column name := by
  obtain ⟨c, table', hc, htable', hcolumns⟩ := columns_of_classMap hcatalog hmap
  obtain rfl := Except.ok.inj (htable.symm.trans htable')
  have hid : c.id = id := by simpa using List.find?_some (classDef_eq_ok.1 hc)
  obtain ⟨links, hsystem, hlinks⟩ : ∃ links, systemColumns c table
      = ⟨"ECInstanceId", "ECInstanceId", .column table.idColumn⟩
        :: ⟨"ECClassId", "ECClassId", classSource c.id table⟩ :: links
      ∧ ∀ column ∈ links, ∃ name, column.source = .column name := by
    rw [systemColumns]
    split
    · exact ⟨_, rfl, by simp⟩
    · exact ⟨[], rfl, List.forall_mem_nil _⟩
  rw [hsystem, hid] at hcolumns
  refine ⟨_, _, hcolumns, List.forall_mem_cons.2 ⟨⟨_, rfl⟩, List.forall_mem_append.2 ⟨hlinks, ?_⟩⟩⟩
  intro column hcolumn
  obtain ⟨p, -, hp⟩ := List.mem_flatMap.1 hcolumn
  exact ⟨_, Property.source_of_mem_columns hp⟩

theorem mem_columns_classId :
    ⟨"ECClassId", "ECClassId", classSource id table⟩ ∈ map.columns := by
  obtain ⟨first, rest, hcolumns, -⟩ := exists_columns hcatalog hmap htable
  rw [hcolumns]
  exact List.mem_cons_of_mem _ (List.mem_cons_self ..)

/-- The class as a target is the column for it, if there is one. -/
theorem target_mem_targets (hnames : ∀ p ∈ names, p.target = .ofClass id)
    (hsets : setsClass names = true) :
    (classSource id table).target ∈ names.flatMap (·.targets catalog) := by
  obtain ⟨p, hp, hclass⟩ := List.any_eq_true.1 hsets
  have hcolumn := mem_columns_classId hcatalog hmap htable
  refine List.mem_flatMap.2 ⟨p, hp, (mem_targets hmap (hnames p hp)).2
    ⟨_, List.mem_filter.2 ⟨hcolumn, ?_⟩, rfl⟩⟩
  exact MappedColumn.belongsTo_iff.2 (.inl (Text.sameName_comm .. ▸ hclass))

/-- A target that is not a column of the table is the class, in a table without a column for it. -/
theorem stores_of_mem_targets (hp : p.target = .ofClass id) (hx : x ∈ p.targets catalog) :
    map.Stores x ∨ (x = id.text ∧ table.classIdColumn = none
      ∧ Text.sameName p.access "ECClassId" = true) := by
  obtain ⟨column, hfound, rfl⟩ := (mem_targets hmap hp).1 hx
  obtain ⟨hcolumn, hbelongs⟩ := List.mem_filter.1 hfound
  obtain ⟨first, rest, hcolumns, hsources⟩ := exists_columns hcatalog hmap htable
  -- only the column for the class may have no place in the table
  by_cases hother : column ∈ first :: rest
  · exact .inl ((ClassMap.stores_target_iff hcolumn).2 (hsources column hother))
  · have hclass : column = ⟨"ECClassId", "ECClassId", classSource id table⟩ := by
      rw [hcolumns] at hcolumn
      grind
    subst hclass
    cases hid : table.classIdColumn with
    | some name =>
      refine .inl ((ClassMap.stores_target_iff hcolumn).2 ⟨name, ?_⟩)
      rw [classSource, hid]
    | none =>
      have hdot : '.' ∉ "ECClassId".toList := by decide
      refine .inr ⟨?_, rfl, ?_⟩
      · rw [classSource, hid, ColumnSource.target]
      · rw [Text.sameName_comm]
        exact MappedColumn.sameName_of_belongsTo hdot hbelongs

/-- What some properties of a class are written to. -/
theorem assigns_targets (hnames : ∀ p ∈ names, p.target = .ofClass id) :
    map.Assigns table names (names.flatMap (·.targets catalog)) := by
  have hid : map.classId = id := classId_of_classMap? (classMap_eq_ok.1 hmap)
  have hcases : ∀ x ∈ names.flatMap (·.targets catalog), map.Stores x
      ∨ (x = id.text ∧ table.classIdColumn = none ∧ setsClass names = true) := by
    intro x hx
    obtain ⟨p, hp, hx⟩ := List.mem_flatMap.1 hx
    refine (stores_of_mem_targets hcatalog hmap htable (hnames p hp) hx).imp_right ?_
    rintro ⟨htext, hnone, hclass⟩
    exact ⟨htext, hnone, List.any_eq_true.2 ⟨p, hp, hclass⟩⟩
  refine ⟨fun x hx => (hcases x hx).imp_right fun h => hid ▸ h.1, ?_, ?_⟩
  · -- the class that is set is among the targets, and its number is not in brackets
    intro hstores hsets hnone
    have htarget := hstores _ (target_mem_targets hcatalog hmap htable hnames hsets)
    rw [classSource, hnone] at htarget
    exact ClassMap.not_stores_text id htarget
  · intro hsome x hx
    rcases hcases x hx with hstores | ⟨-, hnone, hsets⟩
    · exact hstores
    · exact absurd hnone (hsome hsets)

end

end Catalog

/-! ## Insertions -/

namespace Insert

variable {statement : Insert} {env : Environment} {sql : String} {parts : Parts}

/-- The properties of assignments are those of the insertion. -/
theorem map_property_assignments (h : statement.properties.length = statement.values.length) :
    statement.assignments.map (·.property) = statement.properties := by
  rw [assignments, ← List.map_uncurry_zip_eq_zipWith, List.map_map]
  exact List.map_fst_zip (Nat.le_of_eq h)

namespace Parts.Make

/-- The columns of the assignments are the targets of the properties. -/
theorem flatMap_columns (h : parts.Make env statement sql) :
    parts.groups.flatMap (·.columns) = statement.properties.flatMap (·.targets env.catalog) := by
  rw [h.groups.flatMap_columns, ← map_property_assignments h.count, List.flatMap_map]

/-- There are as many columns as values. -/
theorem length_columns (h : parts.Make env statement sql) :
    (parts.columns statement).length = (parts.values statement).length := by
  rw [columns, values, List.length_append, List.length_append, h.groups.length_flatMap, classGroup,
    List.length_map, List.length_map]

/-- The column for the class is set by the statement or added. -/
theorem classIdColumn_mem {definition : CatalogDefinition} {column : String}
    (h : parts.Make env statement sql) (hcatalog : Catalog.ofDefinition definition = .ok env.catalog)
    (hnames : ∀ p ∈ statement.properties, p.target = .ofClass statement.className.classId)
    (hcolumn : parts.table.classIdColumn = some column) :
    bracketed column ∈ parts.columns statement := by
  rw [columns, h.flatMap_columns]
  cases hsets : setsClass statement.properties with
  | true =>
    have htarget := Catalog.target_mem_targets hcatalog h.map h.table hnames hsets
    rw [Catalog.classSource, hcolumn] at htarget
    exact List.mem_append_left _ htarget
  | false =>
    refine List.mem_append_right _ ?_
    rw [classGroup, classColumn?, hsets, hcolumn]
    exact List.mem_singleton_self _

/-- The column that is added is one of the table. -/
theorem stores_classGroup {definition : CatalogDefinition} (h : parts.Make env statement sql)
    (hcatalog : Catalog.ofDefinition definition = .ok env.catalog) :
    ∀ x ∈ (statement.classGroup parts.table).columns, parts.map.Stores x := by
  intro x hx
  obtain ⟨column, hcolumn, rfl⟩ := List.mem_map.1 hx
  have hadded : statement.classColumn? parts.table = some column := Option.mem_toList.1 hcolumn
  rw [classColumn?] at hadded
  split at hadded
  next => cases hadded
  next =>
    have hclass := Catalog.mem_columns_classId hcatalog h.map h.table
    rw [Catalog.classSource, hadded] at hclass
    exact (ClassMap.stores_target_iff hclass).2 ⟨column, rfl⟩

end Parts.Make

/-- The SQL of an insertion lists as many columns as values: those of the properties in their order,
where each property has columns and a value for each of them, and then the column for the class with
the number of the class, if the table has one and no property is the class. If the properties are
those of the class, the column for the class is always there. -/
theorem exists_parts_length_eq {p : LoweredStatement} (htexts : env.texts = none)
    (h : ((Statement.insert statement).lower env).1 = .ok p) :
    ∃ parts : Parts, parts.Make env statement p.sql
      ∧ (parts.columns statement).length = (parts.values statement).length
      ∧ ∀ definition, Catalog.ofDefinition definition = .ok env.catalog →
        (∀ p ∈ statement.properties, p.target = .ofClass statement.className.classId) →
        ∀ column ∈ parts.table.classIdColumn, bracketed column ∈ parts.columns statement := by
  obtain ⟨parts, hmake⟩ := exists_parts htexts h
  refine ⟨parts, hmake, hmake.length_columns, fun definition hcatalog hnames column hcolumn => ?_⟩
  exact hmake.classIdColumn_mem hcatalog hnames hcolumn

end Insert

/-- The column with the class of a row is that of the table. -/
theorem Catalog.classIdColumn_eq {catalog : Catalog} {id : ClassId} {map : ClassMap} {table : Table}
    (hmap : catalog.classMap id = .ok map) (htable : catalog.table map.table = .ok table) :
    table.classIdColumn
      = (catalog.classMap id).toOption.bind fun map => catalog.classColumn? map.table := by
  rw [hmap, ← Catalog.classColumn?_of_table htable]
  rfl

namespace Sample

/-- Inserts a physical element with a code and without an origin. -/
def insertion : Insert :=
  ⟨⟨11, "ts", "PhysicalElement", none, false⟩,
    [⟨"e", ["Code"], .ofClass 11, .primitive .string⟩,
      ⟨"e", ["Origin"], .ofClass 11, .primitive .point3d⟩],
    [.literal (.ofValue (.string "a")), .literal (.ofValue .null)]⟩

/-- `NULL` is written for each coordinate, and the class is added. -/
theorem length_columns_insertion : ∃ p,
    ((Statement.insert insertion).lower (.of catalog .default .builtin)).1 = .ok p
      ∧ p.sql = "INSERT INTO [ts_Element]([Code],[Origin_X],[Origin_Y],[Origin_Z],[ECClassId]) "
        ++ "VALUES ('a',NULL,NULL,NULL,11)"
      ∧ ∃ parts : Insert.Parts, parts.Make (.of catalog .default .builtin) insertion p.sql
        ∧ (parts.columns insertion).length = (parts.values insertion).length
        ∧ "[ECClassId]" ∈ parts.columns insertion := by
  have hlower : ((Statement.insert insertion).lower (.of catalog .default .builtin)).1.toOption.map
      (·.sql) = some
        ("INSERT INTO [ts_Element]([Code],[Origin_X],[Origin_Y],[Origin_Z],[ECClassId]) "
          ++ "VALUES ('a',NULL,NULL,NULL,11)") := by
    decide +kernel
  obtain ⟨p, hp, hsql⟩ := Except.exists_eq_ok_of_map hlower
  obtain ⟨parts, hmake, hlength, hclass⟩ := Insert.exists_parts_length_eq rfl hp
  refine ⟨p, hp, hsql, parts, hmake, hlength, ?_⟩
  refine hclass _ ofDefinition_catalog (by decide) "ECClassId" ?_
  exact (Catalog.classIdColumn_eq hmake.map hmake.table).trans (by decide +kernel)

end Sample

/-- In an insertion or an update that sets properties of its class, what is assigned to are columns
of the table, unless the class is set and the table has no column for it. -/
theorem assigns_of_lower {definition : CatalogDefinition} {env : Environment}
    (hcatalog : Catalog.ofDefinition definition = .ok env.catalog) (htexts : env.texts = none) :
    (∀ (statement : Insert) (p : LoweredStatement),
      ((Statement.insert statement).lower env).1 = .ok p →
      (∀ q ∈ statement.properties, q.target = .ofClass statement.className.classId) →
      ∃ parts : Insert.Parts, parts.Make env statement p.sql
        ∧ parts.map.Assigns parts.table statement.properties (parts.columns statement))
    ∧ ∀ (change : Update) (p : LoweredStatement),
      ((Statement.update change).lower env).1 = .ok p →
      (∀ a ∈ change.assignments, a.property.target = .ofClass change.className.classId) →
      ∃ parts : Change.Parts, parts.Make env (.update change) p.sql
        ∧ ∃ groups, AssignmentsGive env change.assignments (.changing .update) groups parts.state
          ∧ parts.front = "UPDATE " ++ bracketed parts.map.table
            ++ " SET " ++ ",".intercalate (groups.flatMap (·.settings))
          ∧ parts.map.Assigns parts.table (change.assignments.map (·.property))
            (groups.flatMap (·.columns)) := by
  constructor
  · intro statement p h hnames
    obtain ⟨parts, hmake⟩ := Insert.exists_parts htexts h
    refine ⟨parts, hmake, ?_⟩
    rw [Insert.Parts.columns, hmake.flatMap_columns]
    exact (Catalog.assigns_targets hcatalog hmake.map hmake.table hnames).append
      (hmake.stores_classGroup hcatalog)
  · intro change p h hnames
    change ((Change.update change).statement.lower env).1 = _ at h
    obtain ⟨parts, hmake⟩ := Change.exists_parts htexts h
    obtain ⟨_, hassigns, hfront⟩ := hmake.front
    obtain ⟨groups, hgroups, rfl⟩ := hassigns.exists_groups
    refine ⟨parts, hmake, groups, hgroups, hfront, ?_⟩
    rw [hgroups.flatMap_columns, ← List.flatMap_map]
    exact Catalog.assigns_targets hcatalog hmake.map hmake.table (List.forall_mem_map.2 hnames)

namespace Sample

/-- Sets the class and the origin of all physical elements. -/
def reclassing : Update :=
  ⟨⟨11, "ts", "PhysicalElement", none, false⟩,
    [⟨⟨"e", ["ecclassid"], .ofClass 11, .primitive .long⟩, .literal (.ofValue (.integer 12))⟩,
      ⟨⟨"e", ["Origin"], .ofClass 11, .primitive .point3d⟩, .literal (.ofValue .null)⟩],
    none⟩

/-- The class may be set where the table has a column for it. -/
theorem stores_insertion_reclassing :
    (∃ p, ((Statement.insert insertion).lower (.of catalog .default .builtin)).1 = .ok p
      ∧ ∃ parts : Insert.Parts, parts.Make (.of catalog .default .builtin) insertion p.sql
        ∧ ∀ x ∈ parts.columns insertion, parts.map.Stores x)
    ∧ ∃ p, ((Statement.update reclassing).lower (.of catalog .default .builtin)).1 = .ok p
      ∧ p.sql = "UPDATE [ts_Element] SET [ECClassId]=12,[Origin_X]=NULL,[Origin_Y]=NULL,"
        ++ "[Origin_Z]=NULL WHERE (ECClassId=11)"
      ∧ ∃ parts : Change.Parts, parts.Make (.of catalog .default .builtin) (.update reclassing) p.sql
        ∧ ∃ groups : List TargetGroup, parts.front = "UPDATE " ++ bracketed parts.map.table
            ++ " SET " ++ ",".intercalate (groups.flatMap (·.settings))
          ∧ ∀ x ∈ groups.flatMap (·.columns), parts.map.Stores x := by
  obtain ⟨hinsert, hupdate⟩ :=
    @assigns_of_lower _ (.of catalog .default .builtin) ofDefinition_catalog rfl
  constructor
  · obtain ⟨p, hp⟩ := Except.exists_eq_ok
      (x := ((Statement.insert insertion).lower (.of catalog .default .builtin)).1) (by decide +kernel)
    obtain ⟨parts, hmake, hassigns⟩ := hinsert insertion p hp (by decide)
    exact ⟨p, hp, parts, hmake, hassigns.stores_iff.2 fun hsets => absurd hsets (by decide)⟩
  · have hlower : ((Statement.update reclassing).lower (.of catalog .default .builtin)).1.toOption.map
        (·.sql) = some ("UPDATE [ts_Element] SET [ECClassId]=12,[Origin_X]=NULL,[Origin_Y]=NULL,"
          ++ "[Origin_Z]=NULL WHERE (ECClassId=11)") := by
      decide +kernel
    obtain ⟨p, hp, hsql⟩ := Except.exists_eq_ok_of_map hlower
    obtain ⟨parts, hmake, groups, -, hfront, hassigns⟩ := hupdate reclassing p hp (by decide)
    refine ⟨p, hp, hsql, parts, hmake, groups, hfront, hassigns.stores_iff.2 fun _ => ?_⟩
    rw [Catalog.classIdColumn_eq hmake.map hmake.table]
    decide +kernel

/-- Inserts a widget with its class. -/
def classInsertion : Insert :=
  ⟨⟨20, "ts", "Widget", none, false⟩,
    [⟨"w", ["Name"], .ofClass 20, .primitive .string⟩,
      ⟨"w", ["ECClassId"], .ofClass 20, .primitive .long⟩],
    [.literal (.ofValue (.string "a")), .literal (.ofValue (.integer 20))]⟩

/-- Widgets have a table without a column for the class. The number of the class stands in the list
of columns. -/
theorem not_stores_classInsertion :
    Catalog.ofDefinition ⟨tables, classes⟩ = .ok catalog
    ∧ (∀ q ∈ classInsertion.properties, q.target = .ofClass classInsertion.className.classId)
    ∧ ∃ p, ((Statement.insert classInsertion).lower (.of catalog .default .builtin)).1 = .ok p
      ∧ p.sql = "INSERT INTO [ts_Widget]([Name],20) VALUES ('a',20)"
      ∧ ∃ parts : Insert.Parts, parts.Make (.of catalog .default .builtin) classInsertion p.sql
        ∧ "20" ∈ parts.columns classInsertion ∧ ¬ parts.map.Stores "20" := by
  have hlower : ((Statement.insert classInsertion).lower
      (.of catalog .default .builtin)).1.toOption.map (·.sql)
        = some "INSERT INTO [ts_Widget]([Name],20) VALUES ('a',20)" := by
    decide +kernel
  obtain ⟨p, hp, hsql⟩ := Except.exists_eq_ok_of_map hlower
  obtain ⟨parts, hmake⟩ := Insert.exists_parts rfl hp
  have hnames : ∀ q ∈ classInsertion.properties,
      q.target = .ofClass classInsertion.className.classId := by decide
  refine ⟨ofDefinition_catalog, hnames, p, hp, hsql, parts, hmake, ?_, ?_⟩
  · have htarget :=
      Catalog.target_mem_targets ofDefinition_catalog hmake.map hmake.table hnames (by decide)
    have hnone : parts.table.classIdColumn = none :=
      (Catalog.classIdColumn_eq hmake.map hmake.table).trans (by decide +kernel)
    rw [Catalog.classSource, hnone] at htarget
    rw [Insert.Parts.columns, hmake.flatMap_columns]
    exact List.mem_append_left _ htarget
  · exact ClassMap.not_stores_text 20

end Sample

end EntitySql
