import EntitySql.Catalog.Columns
import EntitySql.Catalog.Error
import EntitySql.Catalog.Index

/-!
# Catalogs

A catalog holds the classes of a schema in the order of their numbers, the tables, and a class map
for every class that is stored. Two indexes are kept beside them, of the classes of a table and of
the subclasses of a class, with the proof that they hold what a search would find.
`Catalog.ofDefinition` makes a catalog from a definition in which no class number occurs twice and
every base class and table that is named is also defined.

Walks along base classes carry a bound on their length. It is the number of classes, which no walk
exceeds that visits no class twice.
-/

namespace EntitySql

/-- The classes and tables that statements refer to. -/
structure Catalog where
  /-- The tables; of several with one name the last counts. -/
  tables : List Table
  /-- The classes, in the order of their numbers. -/
  classes : List ClassDef
  /-- The stored classes, in the order of their definition. -/
  maps : List ClassMap
  /-- The classes that each table stores. -/
  tableClasses : Index String ClassId
  /-- The direct subclasses of each class. -/
  derived : Index ClassId ClassId
  /-- The classes of a table are in the order of their definition. -/
  get_tableClasses : ∀ name, tableClasses.get name
    = (maps.filter (·.table = name)).map (·.classId)
  /-- Subclasses are in the order of their numbers, once for each time they name the class as a
  base. -/
  get_derived : ∀ id, derived.get id
    = classes.flatMap fun c => (c.bases.filter (· = id)).map fun _ => c.id

/-- The class with this number among some classes. -/
def findClass? (classes : List ClassDef) (id : ClassId) : Option ClassDef :=
  classes.find? (·.id = id)

/-- A class at its place in a list that is ordered by number. -/
def insertClass (c : ClassDef) : List ClassDef → List ClassDef
  | [] => [c]
  | head :: tail =>
    if c.id.value < head.id.value then c :: head :: tail else head :: insertClass c tail

/-! ## Properties, own and inherited -/

/-- An inherited property joins those found so far unless its name is taken. -/
def inheritProperty (properties : List Property) (property : Property) : List Property :=
  if properties.any (Text.sameName ·.name property.name) then properties
  else properties ++ [property]

/-- A declared property takes the place of an inherited one of the same name. -/
def declareProperty (properties : List Property) (property : Property) : List Property :=
  properties.filter (!Text.sameName ·.name property.name) ++ [property]

/-- The properties of a class, those of its base classes first, over walks of bounded length. -/
def propertiesWithin (classes : List ClassDef) : Nat → ClassId → List Property
  | 0, _ => []
  | bound + 1, id =>
    match findClass? classes id with
    | none => []
    | some c =>
      let inherited := (c.bases.flatMap (propertiesWithin classes bound)).foldl inheritProperty []
      c.properties.foldl declareProperty inherited

/-- The properties of a class, those of its base classes first. -/
def allProperties (classes : List ClassDef) (id : ClassId) : List Property :=
  propertiesWithin classes classes.length id

/-- The columns of a class in its table. -/
def classColumns (classes : List ClassDef) (c : ClassDef) (table : Table) : List MappedColumn :=
  systemColumns c table ++ (allProperties classes c.id).flatMap Property.columns

/-! ## Making a catalog -/

/-- One more class of a definition, if its number is not taken. -/
def addClass (classes : List ClassDef) (entry : ClassEntry) : Except CatalogError (List ClassDef) :=
  let c := entry.definition
  if (findClass? classes c.id).isSome then .error (.duplicateClass c.id)
  else .ok (insertClass c classes)

/-- Whether all base classes of a class are defined; the first that is not is the failure. -/
def checkBases (classes : List ClassDef) (c : ClassDef) : Except CatalogError Unit :=
  match c.bases.find? fun base => (findClass? classes base).isNone with
  | some base => .error (.undefinedBase base c.fullName)
  | none => .ok ()

/-- The class map of a class that names a table. -/
def mapClass (tables : List Table) (classes : List ClassDef) (entry : ClassEntry) :
    Except CatalogError (Option ClassMap) :=
  match entry.table with
  | none => .ok none
  | some name =>
    match tables.findRev? (·.name = name) with
    | none => .error (.tableNotFound name)
    | some table =>
      let c := entry.definition
      .ok (some ⟨c.id, name, entry.polymorphic, classColumns classes c table⟩)

/-- The index of the classes by the table that stores them. -/
def indexTables (maps : List ClassMap) : Index String ClassId :=
  .ofPairs (maps.map fun map => (map.table, map.classId))

/-- The index has the classes of a table in the order of their maps. -/
theorem get_indexTables (maps : List ClassMap) (name : String) :
    (indexTables maps).get name = (maps.filter (·.table = name)).map (·.classId) := by
  rw [indexTables, Index.get_ofPairs, List.filter_map, List.map_map]
  rfl

/-- The index of the classes by their base classes. -/
def indexBases (classes : List ClassDef) : Index ClassId ClassId :=
  .ofPairs (classes.flatMap fun c => c.bases.map fun base => (base, c.id))

/-- The index has the subclasses of a class in the order of the classes. -/
theorem get_indexBases (classes : List ClassDef) (id : ClassId) : (indexBases classes).get id
    = classes.flatMap fun c => (c.bases.filter (· = id)).map fun _ => c.id := by
  rw [indexBases, Index.get_ofPairs, List.filter_flatMap, List.map_flatMap]
  simp only [List.filter_map, List.map_map]
  rfl

namespace Catalog

/-- The catalog of some tables, classes and class maps, with its indexes. -/
def indexed (tables : List Table) (classes : List ClassDef) (maps : List ClassMap) : Catalog where
  tables := tables
  classes := classes
  maps := maps
  tableClasses := indexTables maps
  derived := indexBases classes
  get_tableClasses := get_indexTables maps
  get_derived := get_indexBases classes

/-- The catalog of a definition. Repeated class numbers are found first, then undefined base
classes in the order of the class numbers, then missing tables in the order of the definition. -/
def ofDefinition (definition : CatalogDefinition) : Except CatalogError Catalog := do
  let classes ← definition.classes.foldlM addClass []
  classes.forM (checkBases classes)
  let maps ← definition.classes.mapM (mapClass definition.tables classes)
  return indexed definition.tables classes (maps.filterMap id)

/-! ## Questions -/

/-- The class with this number. -/
def classDef (catalog : Catalog) (id : ClassId) : Except CatalogError ClassDef :=
  match findClass? catalog.classes id with
  | some c => .ok c
  | none => .error (.classNotFound id)

/-- The class with this name, the one with the lowest number if there are several. -/
def findClass (catalog : Catalog) (schema name : String) : Except CatalogError ClassDef :=
  let named (c : ClassDef) : Bool := Text.sameName c.schema schema && Text.sameName c.name name
  match catalog.classes.find? named with
  | some c => .ok c
  | none => .error (.classNameNotFound (schema ++ "." ++ name))

/-- The class map of a class, if it is stored. -/
def classMap? (catalog : Catalog) (id : ClassId) : Option ClassMap :=
  catalog.maps.find? (·.classId = id)

/-- The class map of a class. -/
def classMap (catalog : Catalog) (id : ClassId) : Except CatalogError ClassMap :=
  match catalog.classMap? id with
  | some map => .ok map
  | none => do .error (.classNotMapped (← catalog.classDef id).fullName)

/-- The table with this name. -/
def table (catalog : Catalog) (name : String) : Except CatalogError Table :=
  match catalog.tables.findRev? (·.name = name) with
  | some table => .ok table
  | none => .error (.tableNotFound name)

/-- The classes stored in a table, in the order of their definition. -/
def classesInTable (catalog : Catalog) (name : String) : List ClassId :=
  catalog.tableClasses.get name

/-- Whether more than one class is stored in a table. -/
def isSharedTable (catalog : Catalog) (name : String) : Bool :=
  1 < (catalog.classesInTable name).length

/-- The first property of this name on walks of bounded length, the class itself first. -/
def findPropertyWithin (catalog : Catalog) (name : String) : Nat → ClassId → Option Property
  | 0, _ => none
  | bound + 1, id => do
    let c ← findClass? catalog.classes id
    (findProperty? name c.properties).or (c.bases.findSome? (findPropertyWithin catalog name bound))

/-- The property of this name, of the class itself or else of the first base class that has it. -/
def findProperty (catalog : Catalog) (id : ClassId) (name : String) :
    Except CatalogError Property := do
  let c ← catalog.classDef id
  match catalog.findPropertyWithin name catalog.classes.length id with
  | some property => .ok property
  | none => .error (.propertyNotFound c.fullName name)

end Catalog

end EntitySql
