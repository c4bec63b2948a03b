import EntitySql.Codec.Exp
import EntitySql.Syntax.Statement

/-!
# Statements in JSON
-/

namespace EntitySql

open Json (Dialect bool? list? string? variant?)

namespace CommonTable

/-- The JSON form of a common table. -/
def toJson (table : CommonTable) : Json :=
  .object [("name", .string table.name), ("columns", .strings table.columns),
    ("select", selectJson table.select)]

/-- Reads a common table. -/
def ofJson? (reader : SyntaxReader) (json : Json) : Option CommonTable := do
  let fields ← json.fields? ["name", "columns", "select"]
  return ⟨← fields.required "name" string?, ← fields.defaulted "columns" [] (list? string?),
    ← fields.required "select" reader.select⟩

end CommonTable

namespace WithSelect

/-- The JSON form of a select with common tables. -/
def toJson (statement : WithSelect) : Json :=
  .object [("recursive", .bool statement.recursive),
    ("blocks", .array (statement.tables.map CommonTable.toJson)),
    ("select", selectJson statement.select)]

/-- Reads a select with common tables. -/
def ofJson? (reader : SyntaxReader) (json : Json) : Option WithSelect := do
  let fields ← json.fields? ["recursive", "blocks", "select"]
  return ⟨← fields.defaulted "recursive" false bool?,
    ← fields.required "blocks" (list? (CommonTable.ofJson? reader)),
    ← fields.required "select" reader.select⟩

end WithSelect

namespace Insert

/-- The JSON form of an insertion. -/
def toJson (statement : Insert) : Json :=
  .object [("class", statement.className.toJson),
    ("properties", .array (statement.properties.map PropertyName.toJson)),
    ("values", .array (listJson statement.values))]

/-- Reads an insertion. -/
def ofJson? (reader : SyntaxReader) (json : Json) : Option Insert := do
  let fields ← json.fields? ["class", "properties", "values"]
  return ⟨← fields.required "class" ClassName.ofJson?,
    ← fields.required "properties" (list? (PropertyName.ofJson? reader.dialect)),
    ← fields.required "values" (list? reader.exp)⟩

end Insert

namespace Assignment

/-- The JSON form of an assignment. -/
def toJson (assignment : Assignment) : Json :=
  .object [("property", assignment.property.toJson), ("value", assignment.value.toJson)]

/-- Reads an assignment. -/
def ofJson? (reader : SyntaxReader) (json : Json) : Option Assignment := do
  let fields ← json.fields? ["property", "value"]
  return ⟨← fields.required "property" (PropertyName.ofJson? reader.dialect),
    ← fields.required "value" reader.exp⟩

end Assignment

namespace Update

/-- The JSON form of an update. -/
def toJson (statement : Update) : Json :=
  .object [("class", statement.className.toJson),
    ("assignments", .array (statement.assignments.map Assignment.toJson)),
    ("where_clause", optionJson statement.condition)]

/-- Reads an update. -/
def ofJson? (reader : SyntaxReader) (json : Json) : Option Update := do
  let fields ← json.fields? ["class", "assignments", "where_clause"]
  return ⟨← fields.required "class" ClassName.ofJson?,
    ← fields.required "assignments" (list? (Assignment.ofJson? reader)),
    ← fields.optional "where_clause" reader.exp⟩

end Update

namespace Delete

/-- The JSON form of a deletion. -/
def toJson (statement : Delete) : Json :=
  .object [("class", statement.className.toJson),
    ("where_clause", optionJson statement.condition)]

/-- Reads a deletion. -/
def ofJson? (reader : SyntaxReader) (json : Json) : Option Delete := do
  let fields ← json.fields? ["class", "where_clause"]
  return ⟨← fields.required "class" ClassName.ofJson?,
    ← fields.optional "where_clause" reader.exp⟩

end Delete

namespace Statement

/-- The JSON form of a statement. -/
def toJson : Statement → Json
  | .select s => .variant "Select" (selectJson s)
  | .withSelect s => .variant "CommonTable" s.toJson
  | .insert s => .variant "Insert" s.toJson
  | .update s => .variant "Update" s.toJson
  | .delete s => .variant "Delete" s.toJson

/-- A statement. -/
def ofJson? (dialect : Dialect) (json : Json) : Option Statement :=
  let reader := SyntaxReader.of dialect json
  variant? [("Select", fun json => return .select (← reader.select json)),
    ("CommonTable", fun json => return .withSelect (← WithSelect.ofJson? reader json)),
    ("Insert", fun json => return .insert (← Insert.ofJson? reader json)),
    ("Update", fun json => return .update (← Update.ofJson? reader json)),
    ("Delete", fun json => return .delete (← Delete.ofJson? reader json))] json

end Statement

/-- A select. -/
def Select.read? (dialect : Dialect) (json : Json) : Option (Select Exp Source) :=
  (SyntaxReader.of dialect json).select json

/-- A select that is not combined with others. -/
def SelectCore.read? (dialect : Dialect) (json : Json) : Option (SelectCore Exp Source) :=
  let reader := SyntaxReader.of dialect json
  SelectCore.ofJson? dialect reader.exp reader.source json

/-- A window. -/
def WindowSpec.read? (dialect : Dialect) (json : Json) : Option (WindowSpec Exp) :=
  WindowSpec.ofJson? dialect (SyntaxReader.of dialect json).exp json

end EntitySql
