import EntitySql.Proofs.Catalog.Columns

/-!
# Declared and stored widths

How many columns a value occupies is counted from its type, and how many a property has follows from
the columns that are made for it. The two counts differ by the navigation values inside structs:
there they get one column, while a property that is one gets two
(`Catalog.length_property_add_innerNavigations`).
-/

namespace EntitySql

/-! ## Widths of types -/

namespace ValueType

mutual

/-- The number of navigation values in a value, those in members of structs included. -/
def navigationCount : ValueType → Nat
  | .navigation _ => 1
  | .struct type => structNavigationCount type
  | .unknown | .null | .primitive _ | .primitiveArray _ | .structArray _ => 0

/-- The number of navigation values in a struct. -/
def structNavigationCount : StructType → Nat
  | ⟨_, members⟩ => memberNavigationCount members

/-- The number of navigation values in some members of a struct. -/
def memberNavigationCount : List StructMember → Nat
  | [] => 0
  | ⟨_, type⟩ :: members => navigationCount type + memberNavigationCount members

end

theorem length_paths_primitive (type : PrimitiveType) :
    (paths (.primitive type)).length = type.columnCount := by
  rw [paths]
  cases type <;> rfl

mutual

/-- A value has a path for each of its columns, but one instead of two for a navigation value. -/
theorem length_paths_add_navigationCount : (type : ValueType) →
    type.paths.length + type.navigationCount = type.columnCount
  | .primitive type => by
    rw [navigationCount, columnCount]
    exact length_paths_primitive type
  | .struct type => by
    rw [paths, navigationCount, columnCount]
    exact length_structPaths_add_navigationCount type
  | .unknown | .null | .navigation _ | .primitiveArray _ | .structArray _ => by
    rw [paths, navigationCount, columnCount]
    rfl

/-- The paths of a struct and the navigations in it make up its columns. -/
theorem length_structPaths_add_navigationCount : (type : StructType) →
    (structPaths type).length + structNavigationCount type = structColumnCount type
  | ⟨_, members⟩ => by
    rw [structPaths, structNavigationCount, structColumnCount]
    exact length_memberPaths_add_navigationCount members

/-- The paths of members and the navigations in them make up their columns. -/
theorem length_memberPaths_add_navigationCount : (members : List StructMember) →
    (memberPaths members).length + memberNavigationCount members = memberColumnCount members
  | [] => rfl
  | ⟨name, type⟩ :: members => by
    have htype := length_paths_add_navigationCount type
    have hmembers := length_memberPaths_add_navigationCount members
    rw [memberPaths, memberNavigationCount, memberColumnCount, List.length_append, List.length_map]
    omega

end

end ValueType

/-! ## Columns of a property -/

namespace Property

/-- The number of navigation values inside a property that is not one itself. -/
def innerNavigations (p : Property) : Nat :=
  if p.navigation? = none then p.type.navigationCount else 0

/-- The columns of a property are as many as its type says, but for the navigations in it. -/
theorem length_columns_add_innerNavigations (p : Property) :
    p.columns.length + p.innerNavigations = p.type.columnCount := by
  by_cases hkind : p.navigation? = none
  · rw [columns_of_value hkind, List.length_map, innerNavigations, if_pos hkind]
    exact p.type.length_paths_add_navigationCount
  · rw [columns_of_navigation hkind, innerNavigations, if_neg hkind]
    rcases p with ⟨name, kind⟩
    cases kind with
    | navigation => rfl
    | primitive | struct | primitiveArray | structArray => exact absurd rfl hkind

end Property

namespace Catalog

/-- In a catalog whose properties have names of their own, without dots, the look-up of a property
in the class map of a class that has it finds the columns of the property. They are as many as its
type says, less one for each navigation value inside. -/
theorem length_property_add_innerNavigations {definition : CatalogDefinition} {catalog : Catalog}
    (hcatalog : ofDefinition definition = .ok catalog)
    (hnames : ∀ c ∈ catalog.classes, ∀ p ∈ c.properties, p.IsOrdinary) {id : ClassId} {map : ClassMap}
    (hmap : catalog.classMap id = .ok map) {p : Property}
    (hp : p ∈ allProperties catalog.classes id) :
    map.property p.name = p.columns
      ∧ (map.property p.name).length + p.innerNavigations = p.type.columnCount
      ∧ ((map.property p.name).length = p.type.columnCount ↔ p.innerNavigations = 0) := by
  have hfound := property_eq_columns hcatalog hnames hmap hp
  have hlength := p.length_columns_add_innerNavigations
  rw [← hfound] at hlength
  refine ⟨hfound, hlength, ?_⟩
  omega

end Catalog

namespace Sample

/-- Nodes with positions, and nodes with a label and a link to another node inside a struct. -/
def nodes : CatalogDefinition :=
  ⟨[.named "ts_Node"],
    [⟨entity 1 "Node" [] [⟨"Position", .primitive .point3d⟩, ⟨"Next", .navigation ⟨3, .forward⟩⟩],
        none, true⟩,
      ⟨entity 2 "LinkedNode" [1]
          [⟨"Tags", .primitiveArray .string⟩,
            ⟨"Info", .struct ⟨"ts.Info", [⟨"Label", .primitive .string⟩, ⟨"Where", .struct address⟩]⟩⟩,
            ⟨"Link", .struct ⟨"ts.Link", [⟨"Target", .navigation 3⟩]⟩⟩],
        some "ts_Node", true⟩,
      ⟨relationship 3 "NodeRefersToNode" [], none, true⟩]⟩

theorem ofDefinition_nodes : Catalog.ofDefinition nodes = .ok (catalogOf nodes) :=
  ofDefinition_catalogOf (by decide +kernel)

theorem isOrdinary_nodes : ∀ c ∈ (catalogOf nodes).classes, ∀ p ∈ c.properties, p.IsOrdinary := by
  decide +kernel

/-- The properties of nodes with links, inherited ones first, and how many columns they have. -/
theorem length_property_nodes :
    ∃ map, (catalogOf nodes).classMap 2 = .ok map
      ∧ (∀ p ∈ allProperties (catalogOf nodes).classes 2,
        (map.property p.name).length + p.innerNavigations = p.type.columnCount)
      ∧ (allProperties (catalogOf nodes).classes 2).map (fun p => (p.name, p.innerNavigations))
        = [("Position", 0), ("Next", 0), ("Tags", 0), ("Info", 0), ("Link", 1)]
      ∧ (allProperties (catalogOf nodes).classes 2).map (·.type.columnCount) = [3, 2, 1, 4, 2] := by
  obtain ⟨map, hmap⟩ := Except.exists_eq_ok (x := (catalogOf nodes).classMap 2) (by decide +kernel)
  refine ⟨map, hmap, fun p hp => ?_, by decide +kernel, by decide +kernel⟩
  exact (Catalog.length_property_add_innerNavigations ofDefinition_nodes isOrdinary_nodes hmap hp).2.1

/-- A link inside a struct has two columns by its type, but one in the table. -/
theorem length_property_link :
    Catalog.ofDefinition nodes = .ok (catalogOf nodes) ∧ (catalogOf nodes).Acyclic
      ∧ (∀ c ∈ (catalogOf nodes).classes, ∀ p ∈ c.properties, p.IsOrdinary)
      ∧ ∃ map, (catalogOf nodes).classMap 2 = .ok map ∧ ∃ p ∈ allProperties (catalogOf nodes).classes 2,
        (map.property p.name).length = 1 ∧ p.type.columnCount = 2 := by
  have hacyclic : (catalogOf nodes).Acyclic :=
    Catalog.acyclic_of_isSubclassOf (Catalog.nodup_classes_of_ofDefinition ofDefinition_nodes)
      (by decide +kernel)
  obtain ⟨map, hmap, hlength⟩ := Except.exists_eq_ok_of_map
    (x := (catalogOf nodes).classMap 2) (f := fun map => (map.property "Link").length) (b := 1)
    (by decide +kernel)
  refine ⟨ofDefinition_nodes, hacyclic, isOrdinary_nodes, map, hmap, ?_⟩
  have hlink : (allProperties (catalogOf nodes).classes 2)[4]?
      = some ⟨"Link", .struct ⟨"ts.Link", [⟨"Target", .navigation 3⟩]⟩⟩ := by
    rfl
  exact ⟨_, List.mem_of_getElem? hlink, hlength, by decide +kernel⟩

end Sample

end EntitySql
