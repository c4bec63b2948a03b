import EntitySql.Function.Builtin

/-!
# The function registry

Functions by name, without regard to letter case. A call of a function that is not in the registry
is passed on as it is.
-/

namespace EntitySql

/-- The functions that are known. -/
structure Registry where
  functions : List FunctionDef

namespace Registry

/-- The registry of the builtin functions. -/
def builtin : Registry :=
  ⟨Builtin.functions⟩

instance : Inhabited Registry := ⟨builtin⟩

/-- Adds a function, in the place of those of the same name. -/
def register (registry : Registry) (function : FunctionDef) : Registry :=
  ⟨registry.functions.filter (!Text.sameName ·.name function.name) ++ [function]⟩

/-- The function of this name. -/
def find? (registry : Registry) (name : String) : Option FunctionDef :=
  registry.functions.find? (Text.sameName ·.name name)

/-- The functions of one kind, in the order in which they were added. -/
def ofKind (registry : Registry) (kind : FunctionKind) : List FunctionDef :=
  registry.functions.filter (·.kind = kind)

end Registry

end EntitySql
