import EntitySql.Schema.Definition

/-!
# Columns of properties

Which columns store a property follows from its type: one for each coordinate of a point, for each
member of a struct at any depth, and for the two halves of a navigation value. The path of a column
has a dot between its names; the column itself has an underscore there.
-/

namespace EntitySql

/-- A column that is stored under the name by which queries see it. -/
def storedColumn (access viewName : String) : MappedColumn :=
  ⟨access, viewName, .column viewName⟩

/-- The columns of a value that is not a struct. -/
def simpleColumns (access viewName : String) (type : ValueType) : List MappedColumn :=
  match type with
  | .primitive type =>
    if type.isPoint then
      type.coordinates.map fun coordinate =>
        storedColumn (access ++ "." ++ coordinate) (viewName ++ "_" ++ coordinate)
    else [storedColumn access viewName]
  | _ => [storedColumn access viewName]

mutual

/-- The columns of a value. -/
def valueColumns (access viewName : String) : ValueType → List MappedColumn
  | .struct type => structColumns access viewName type
  | type => simpleColumns access viewName type

/-- The columns of a struct. -/
def structColumns (access viewName : String) : StructType → List MappedColumn
  | ⟨_, members⟩ => memberColumns access viewName members

/-- The columns of some members of a struct. -/
def memberColumns (access viewName : String) : List StructMember → List MappedColumn
  | [] => []
  | ⟨name, type⟩ :: members =>
    valueColumns (access ++ "." ++ name) (viewName ++ "_" ++ name) type
      ++ memberColumns access viewName members

end

/-- The columns of a property. -/
def Property.columns (property : Property) : List MappedColumn :=
  match property.kind with
  | .navigation _ =>
    [storedColumn (property.name ++ ".Id") (property.name ++ "Id"),
      storedColumn (property.name ++ ".RelECClassId") (property.name ++ "RelECClassId")]
  | _ => valueColumns property.name property.name property.type

/-- The columns of the system properties of a class in its table. Without a column for the class,
the class is a constant. -/
def systemColumns (c : ClassDef) (table : Table) : List MappedColumn :=
  let classSource :=
    match table.classIdColumn with
    | some column => .column column
    | none => .classId c.id
  let instanceColumns : List MappedColumn :=
    [⟨"ECInstanceId", "ECInstanceId", .column table.idColumn⟩,
      ⟨"ECClassId", "ECClassId", classSource⟩]
  let linkColumns : List MappedColumn :=
    [⟨"SourceECInstanceId", "SourceECInstanceId", .column "SourceId"⟩,
      ⟨"SourceECClassId", "SourceECClassId", .column "SourceClassId"⟩,
      ⟨"TargetECInstanceId", "TargetECInstanceId", .column "TargetId"⟩,
      ⟨"TargetECClassId", "TargetECClassId", .column "TargetClassId"⟩]
  if c.isRelationship then instanceColumns ++ linkColumns else instanceColumns

end EntitySql
