import EntitySql.Proofs.PropertyLookup
import EntitySql.Proofs.Storage.Pruned

/-!
# Paths to columns

The columns of a value stand at the ends of paths through the members of structs and the coordinates
of points. The access string of a column and the name under which queries see it are the two ways to
join the names on its path (`valueColumns_eq`). So the columns of a property are the ones below its
name, and where names have no dots they are all that the look-up of the name finds
(`ClassMap.property_eq_of_columns`).
-/

namespace EntitySql

/-! ## Joined names -/

namespace Text

/-- A name followed by those on a path, with a separator before each of them. -/
def along (separator name : String) (path : List String) : String :=
  path.foldl (fun joined next => joined ++ separator ++ next) name

variable {separator name : String} {path : List String}

theorem toList_along (separator name : String) (path : List String) :
    (along separator name path).toList
      = name.toList ++ path.flatMap fun next => separator.toList ++ next.toList := by
  induction path generalizing name with
  | nil => simp [along]
  | cons next path ih =>
    rw [along, List.foldl_cons, ← along, ih]
    simp

/-- A name without dots is the root of every path that begins with it. -/
theorem rootName_along (h : '.' ∉ name.toList) : rootName (along "." name path) = name := by
  have hname : ∀ c ∈ name.toList, decide (c ≠ '.') = true := by
    intro c hc
    exact decide_eq_true fun hdot => h (hdot ▸ hc)
  have hrest : (path.flatMap fun next => ".".toList ++ next.toList).takeWhile (· ≠ '.') = [] := by
    cases path with
    | nil => rfl
    | cons next path => rfl
  rw [rootName, toList_along, List.takeWhile_append_of_pos hname, hrest, List.append_nil,
    String.ofList_toList]

end Text

/-! ## Paths -/

namespace ValueType

mutual

/-- The paths that lead from a value to its columns. -/
def paths : ValueType → List (List String)
  | .struct type => structPaths type
  | .primitive type => if type.isPoint then type.coordinates.map fun name => [name] else [[]]
  | .unknown | .null | .navigation _ | .primitiveArray _ | .structArray _ => [[]]

/-- The paths that lead from a struct to its columns. -/
def structPaths : StructType → List (List String)
  | ⟨_, members⟩ => memberPaths members

/-- The paths that lead through some members of a struct. -/
def memberPaths : List StructMember → List (List String)
  | [] => []
  | ⟨name, type⟩ :: members => (paths type).map (name :: ·) ++ memberPaths members

end

end ValueType

/-- The column at the end of a path. -/
def columnAt (access viewName : String) (path : List String) : MappedColumn :=
  storedColumn (Text.along "." access path) (Text.along "_" viewName path)

theorem simpleColumns_primitive (access viewName : String) (type : PrimitiveType) :
    simpleColumns access viewName (.primitive type)
      = (ValueType.paths (.primitive type)).map (columnAt access viewName) := by
  rw [simpleColumns, ValueType.paths]
  split
  · rw [List.map_map]
    rfl
  · rfl

mutual

/-- A value has one column for each of its paths. -/
theorem valueColumns_eq (access viewName : String) : (type : ValueType) →
    valueColumns access viewName type = type.paths.map (columnAt access viewName)
  | .struct type => by
    rw [valueColumns, ValueType.paths]
    exact structColumns_eq access viewName type
  | .primitive type => by
    rw [valueColumns]
    · exact simpleColumns_primitive access viewName type
    · intro type h
      cases h
  | .unknown | .null | .navigation _ | .primitiveArray _ | .structArray _ => by
    rw [valueColumns, simpleColumns, ValueType.paths]
    · rfl
    all_goals
      intro type h
      cases h

/-- The columns of a struct are those at its paths. -/
theorem structColumns_eq (access viewName : String) : (type : StructType) →
    structColumns access viewName type
      = (ValueType.structPaths type).map (columnAt access viewName)
  | ⟨_, members⟩ => by
    rw [structColumns, ValueType.structPaths]
    exact memberColumns_eq access viewName members

/-- The columns of members are those at their paths. -/
theorem memberColumns_eq (access viewName : String) : (members : List StructMember) →
    memberColumns access viewName members
      = (ValueType.memberPaths members).map (columnAt access viewName)
  | [] => rfl
  | ⟨name, type⟩ :: members => by
    rw [memberColumns, ValueType.memberPaths, List.map_append, List.map_map,
      valueColumns_eq (access ++ "." ++ name) (viewName ++ "_" ++ name) type,
      memberColumns_eq access viewName members]
    rfl

end

/-! ## Columns of properties -/

namespace Property

variable {p : Property} {column : MappedColumn}

/-- The columns of a property are those at the paths of its type. -/
theorem columns_of_value (h : p.navigation? = none) :
    p.columns = p.type.paths.map (columnAt p.name p.name) := by
  rw [← valueColumns_eq]
  rcases p with ⟨name, kind⟩
  cases kind with
  | navigation => cases h
  | primitive | struct | primitiveArray | structArray => rfl

/-- The two halves of a navigation value. -/
def halves (p : Property) : List MappedColumn :=
  ["Id", "RelECClassId"].map fun half => storedColumn (p.name ++ "." ++ half) (p.name ++ half)

/-- A navigation property has two columns, for its number and its relationship class. -/
theorem columns_of_navigation (h : p.navigation? ≠ none) : p.columns = p.halves := by
  rcases p with ⟨name, kind⟩
  cases kind with
  | navigation navigation =>
    have hdot (half : String) : name ++ "." ++ half = name ++ ("." ++ half) := String.append_assoc ..
    simp only [halves, List.map_cons, List.map_nil, hdot]
    rfl
  | primitive | struct | primitiveArray | structArray => exact absurd rfl h

/-- The columns of a property are reached from its name. -/
theorem exists_path (h : column ∈ p.columns) :
    ∃ path, column.access = Text.along "." p.name path := by
  by_cases hkind : p.navigation? = none
  · rw [columns_of_value hkind] at h
    obtain ⟨path, -, rfl⟩ := List.mem_map.1 h
    exact ⟨path, rfl⟩
  · rw [columns_of_navigation hkind] at h
    obtain ⟨half, -, rfl⟩ := List.mem_map.1 h
    exact ⟨[half], rfl⟩

/-- The columns of a property are filled from columns of the same name. -/
theorem source_of_mem_columns (h : column ∈ p.columns) : column.source = .column column.viewName := by
  by_cases hkind : p.navigation? = none
  · rw [columns_of_value hkind] at h
    obtain ⟨path, -, rfl⟩ := List.mem_map.1 h
    rfl
  · rw [columns_of_navigation hkind] at h
    obtain ⟨half, -, rfl⟩ := List.mem_map.1 h
    rfl

end Property

/-- The system columns of a class are the first ones of all. -/
theorem map_access_systemColumns (c : ClassDef) (table : Table) :
    (systemColumns c table).map (·.access)
      = systemProperties.take (if c.isRelationship then 6 else 2) := by
  rw [systemColumns]
  split <;> rfl

theorem access_mem_systemProperties {c : ClassDef} {table : Table} {column : MappedColumn}
    (h : column ∈ systemColumns c table) : column.access ∈ systemProperties := by
  have hmem : column.access ∈ (systemColumns c table).map (·.access) := List.mem_map_of_mem h
  rw [map_access_systemColumns] at hmem
  exact List.mem_of_mem_take hmem

/-- System properties are no paths. -/
theorem dot_notMem_of_mem_systemProperties {name : String} (h : name ∈ systemProperties) :
    '.' ∉ name.toList := by
  have hall : ∀ name ∈ systemProperties, '.' ∉ name.toList := by decide
  exact hall name h

/-! ## Which properties there are -/

/-- Inheriting adds no other properties. -/
theorem inheritProperty_subset {properties all : List Property} {p : Property}
    (h : properties ⊆ all) (hp : p ∈ all) : inheritProperty properties p ⊆ all := by
  rw [inheritProperty]
  split
  · exact h
  · exact List.append_subset.2 ⟨h, List.cons_subset.2 ⟨hp, List.nil_subset _⟩⟩

/-- Declaring adds no other properties. -/
theorem declareProperty_subset {properties all : List Property} {p : Property}
    (h : properties ⊆ all) (hp : p ∈ all) : declareProperty properties p ⊆ all := by
  refine List.append_subset.2 ⟨?_, List.cons_subset.2 ⟨hp, List.nil_subset _⟩⟩
  exact List.Subset.trans (List.filter_subset_self _) h

/-- The properties of a class are its own and those of its base classes. -/
theorem mem_of_mem_gather {c : ClassDef} {inherited : ClassId → List Property} {p : Property}
    (h : p ∈ c.gather inherited) : p ∈ c.properties ∨ ∃ base ∈ c.bases, p ∈ inherited base := by
  let all := c.properties ++ c.bases.flatMap inherited
  have hinherited : (c.bases.flatMap inherited).foldl inheritProperty [] ⊆ all :=
    List.foldlRecOn (motive := (· ⊆ all)) _ _ (List.nil_subset _) fun _ hfound q hq =>
      inheritProperty_subset hfound (List.mem_append_right _ hq)
  have hall : c.gather inherited ⊆ all :=
    List.foldlRecOn (motive := (· ⊆ all)) _ _ hinherited fun _ hfound q hq =>
      declareProperty_subset hfound (List.mem_append_left _ hq)
  exact (List.mem_append.1 (hall h)).imp_right List.mem_flatMap.1

namespace Catalog

variable {catalog : Catalog} {id : ClassId} {p : Property}

/-- Every property of a class is declared in some class. -/
theorem exists_class_of_mem_allProperties (h : p ∈ allProperties catalog.classes id) :
    ∃ c ∈ catalog.classes, p ∈ c.properties := by
  rw [allProperties, propertiesWithin_eq] at h
  generalize catalog.classes.length = bound at h
  induction bound generalizing id with
  | zero => cases h
  | succ bound ih =>
    rw [Walk.within] at h
    cases hfind : findClass? catalog.classes id with
    | none =>
      rw [hfind] at h
      cases h
    | some c =>
      rw [hfind] at h
      rcases mem_of_mem_gather h with hown | ⟨base, -, hbase⟩
      · exact ⟨c, List.mem_of_find?_eq_some hfind, hown⟩
      · exact ih hbase

end Catalog

/-- The name has no dot and is not that of a system property. -/
def Property.IsOrdinary (p : Property) : Prop :=
  '.' ∉ p.name.toList ∧ ∀ name ∈ systemProperties, Text.sameName name p.name = false

instance Property.decidableIsOrdinary (p : Property) : Decidable p.IsOrdinary :=
  inferInstanceAs (Decidable (_ ∧ _))

/-! ## The look-up of a name -/

namespace MappedColumn

variable {column : MappedColumn} {root name : String} {path : List String}

/-- Letter case does not matter for what a column belongs to. -/
theorem belongsTo_congr (h : Text.sameName root name = true) :
    column.belongsTo root = column.belongsTo name := by
  rw [Bool.eq_iff_iff, belongsTo_iff, belongsTo_iff, Text.sameName, Text.sameName,
    Text.sameName_iff.1 h]

/-- A column belongs to the property that it is reached from. -/
theorem belongsTo_along (h : column.access = Text.along "." name path) :
    column.belongsTo name = true := by
  rw [belongsTo_iff, h]
  cases path with
  | nil => exact .inl (Text.sameName_refl name)
  | cons next path =>
    refine .inr ?_
    rw [Text.folded, Text.folded, Text.toList_along, List.flatMap_cons, List.map_append,
      List.append_assoc, List.map_append]
    exact (List.prefix_append_right_inj _).2 (List.prefix_append ..)

/-- Only the name of a column without dots finds it. -/
theorem sameName_of_belongsTo (hdot : '.' ∉ column.access.toList)
    (h : column.belongsTo name = true) : Text.sameName column.access name = true := by
  refine (belongsTo_iff.1 h).resolve_right ?_
  rintro ⟨rest, hrest⟩
  have hmem : '.' ∈ Text.folded column.access := by
    rw [← hrest]
    simp
  obtain ⟨c, hc, hlower⟩ := List.mem_map.1 hmem
  obtain rfl := Text.toLower_eq_dot.1 hlower
  exact hdot hc

/-- A name without dots finds the columns whose path begins with that name. -/
theorem belongsTo_eq_sameName (haccess : column.access = Text.along "." root path)
    (hroot : '.' ∉ root.toList) (hname : '.' ∉ name.toList) :
    column.belongsTo name = Text.sameName root name := by
  rw [Bool.eq_iff_iff]
  constructor
  · intro h
    have hfolded := folded_root h
    rw [MappedColumn.root, haccess, Text.rootName_along hroot] at hfolded
    have hself : Text.rootName name = name := @Text.rootName_along name [] hname
    rw [hself] at hfolded
    exact Text.sameName_iff.2 hfolded
  · intro h
    rw [← belongsTo_congr h]
    exact belongsTo_along haccess

end MappedColumn

/-- Where names have no dots, a name finds the system properties and the properties that have it. -/
theorem ClassMap.property_eq_of_columns {map : ClassMap} {c : ClassDef} {table : Table}
    {properties : List Property} {name : String}
    (hcolumns : map.columns = systemColumns c table ++ properties.flatMap Property.columns)
    (hproperties : ∀ p ∈ properties, '.' ∉ p.name.toList) (hname : '.' ∉ name.toList) :
    map.property name = (systemColumns c table).filter (Text.sameName ·.access name)
      ++ (properties.filter (Text.sameName ·.name name)).flatMap Property.columns := by
  rw [property, hcolumns, List.filter_append, List.filter_flatMap]
  clear hcolumns
  congr 1
  · refine List.filter_congr fun column hcolumn => ?_
    have hdot := dot_notMem_of_mem_systemProperties (access_mem_systemProperties hcolumn)
    have haccess : column.access = Text.along "." column.access [] := rfl
    exact MappedColumn.belongsTo_eq_sameName haccess hdot hname
  · -- of each property, either all columns are found or none
    induction properties with
    | nil => rfl
    | cons p properties ih =>
      obtain ⟨hp, hrest⟩ := List.forall_mem_cons.1 hproperties
      have hfound : ∀ column ∈ p.columns, column.belongsTo name = Text.sameName p.name name := by
        intro column hcolumn
        obtain ⟨path, hpath⟩ := Property.exists_path hcolumn
        exact MappedColumn.belongsTo_eq_sameName hpath hp hname
      rw [List.flatMap_cons, List.filter_congr hfound, ih hrest, List.filter_cons]
      split
      next hsame => simp [hsame]
      next hother => simp [hother]

/-- No two properties have the same name, so one is found. -/
theorem filter_sameName_eq_singleton {properties : List Property} {p : Property}
    (h : DistinctNames properties) (hp : p ∈ properties) :
    properties.filter (Text.sameName ·.name p.name) = [p] := by
  obtain ⟨before, behind, rfl⟩ := List.append_of_mem hp
  obtain ⟨-, hbehind, hcross⟩ := List.pairwise_append.1 h
  have hbefore : before.filter (Text.sameName ·.name p.name) = [] :=
    List.filter_eq_nil_iff.2 fun q hq => by simp [hcross q hq p (List.mem_cons_self ..)]
  have hafter : behind.filter (Text.sameName ·.name p.name) = [] := by
    refine List.filter_eq_nil_iff.2 fun q hq => ?_
    rw [Text.sameName_comm, (List.pairwise_cons.1 hbehind).1 q hq]
    exact Bool.false_ne_true
  rw [List.filter_append, hbefore, List.nil_append, List.filter_cons, if_pos (Text.sameName_refl _),
    hafter]

namespace Catalog

variable {catalog : Catalog} {id : ClassId} {map : ClassMap} {p : Property}

/-- The name of a property finds the columns of that property. -/
theorem property_eq_columns {definition : CatalogDefinition}
    (hcatalog : ofDefinition definition = .ok catalog)
    (hnames : ∀ c ∈ catalog.classes, ∀ p ∈ c.properties, p.IsOrdinary)
    (hmap : catalog.classMap id = .ok map) (hp : p ∈ allProperties catalog.classes id) :
    map.property p.name = p.columns := by
  have hordinary : ∀ q ∈ allProperties catalog.classes id, q.IsOrdinary := by
    intro q hq
    obtain ⟨c, hc, hdeclared⟩ := exists_class_of_mem_allProperties hq
    exact hnames c hc q hdeclared
  obtain ⟨c, table, -, -, hcolumns⟩ := columns_of_classMap hcatalog hmap
  have hsystem : (systemColumns c table).filter (Text.sameName ·.access p.name) = [] := by
    refine List.filter_eq_nil_iff.2 fun column hcolumn => ?_
    rw [(hordinary p hp).2 _ (access_mem_systemProperties hcolumn)]
    exact Bool.false_ne_true
  have hdistinct : DistinctNames (allProperties catalog.classes id) :=
    distinctNames_propertiesWithin _ id
  rw [ClassMap.property_eq_of_columns hcolumns (fun q hq => (hordinary q hq).1) (hordinary p hp).1,
    hsystem, List.nil_append, filter_sameName_eq_singleton hdistinct hp, List.flatMap_singleton]

end Catalog

namespace Sample

/-- The catalog of a definition that has one. -/
def catalogOf (definition : CatalogDefinition) : Catalog :=
  (Catalog.ofDefinition definition).toOption.getD (.indexed [] [] [])

theorem ofDefinition_catalogOf {definition : CatalogDefinition}
    (h : (Catalog.ofDefinition definition).toOption.isSome = true) :
    Catalog.ofDefinition definition = .ok (catalogOf definition) := by
  obtain ⟨made, hmade⟩ := Except.exists_eq_ok h
  rw [catalogOf, hmade]
  rfl

end Sample

end EntitySql
