import EntitySql.Schema.ValueType

/-!
# Failures of a catalog

Why a catalog cannot be made from its definition, or a question to it has no answer.
-/

namespace EntitySql

/-- Why the catalog has no answer. -/
inductive CatalogError where
  /-- No class has this number. -/
  | classNotFound (id : ClassId)
  /-- No class has this name, which includes the name of the schema. -/
  | classNameNotFound (name : String)
  /-- The class is stored in no table. -/
  | classNotMapped (name : String)
  | tableNotFound (name : String)
  /-- The class has no property at this path. -/
  | propertyNotFound (className path : String)
  /-- Two classes of the definition have the same number. -/
  | duplicateClass (id : ClassId)
  /-- A class of the definition has a base class that is not defined. -/
  | undefinedBase (base : ClassId) (className : String)
  /-- The text is not a definition. -/
  | unreadable
deriving DecidableEq

/-- What the failure is about. -/
def CatalogError.message : CatalogError → String
  | .classNotFound id => "ECClass with id " ++ id.text ++ " not found"
  | .classNameNotFound name => "ECClass '" ++ name ++ "' not found"
  | .classNotMapped name => "ECClass '" ++ name ++ "' is not mapped to a table"
  | .tableNotFound name => "Table '" ++ name ++ "' not found"
  | .propertyNotFound className path =>
    "Property '" ++ path ++ "' not found in ECClass '" ++ className ++ "'"
  | .duplicateClass id => "Invalid catalog definition: duplicate class id " ++ id.text
  | .undefinedBase base className =>
    "Invalid catalog definition: base class " ++ base.text ++ " of '" ++ className
      ++ "' is not defined"
  | .unreadable => "Failed to serialize schema data"

end EntitySql
