import EntitySql.Syntax.Literal

/-!
# Parameters

A parameter of a statement becomes one parameter of the database for each column of its type. A
named parameter keeps its names wherever it occurs again; a parameter without a name is known by its
position.
-/

namespace EntitySql

/-- How a parameter is known. -/
inductive ParameterKey where
  | named (name : String)
  | positional (index : UInt32)
deriving DecidableEq

namespace ParameterKey

/-- The key as it is shown in messages. -/
def shown : ParameterKey → String
  | .named name => "Named(" ++ Text.escaped name ++ ")"
  | .positional index => "Positional(" ++ toString index.toNat ++ ")"

/-- The part of the database names that tells parameters apart. -/
def stem : ParameterKey → String
  | .named name => name
  | .positional index => "ix" ++ toString index.toNat

/-- The database name for one of the columns, counted from one. -/
def nativeName (key : ParameterKey) (column : Nat) : String :=
  ":_ecdb_ecsqlparam_" ++ key.stem ++ "_col" ++ toString column

end ParameterKey

/-- How a parameter is known: by its name, or else by its position. -/
def Parameter.key (parameter : Parameter) : ParameterKey :=
  match parameter.name with
  | some name => .named name
  | none => .positional parameter.index

/-- A parameter and its database parameters. -/
structure ParameterBinding where
  key : ParameterKey
  nativeNames : List String
deriving DecidableEq

/-- One parameter occurs with types of different widths. -/
structure ParameterConflict where
  key : ParameterKey
  bound : Nat
  referenced : Nat
deriving DecidableEq

/-- What the conflict is about. -/
def ParameterConflict.message (conflict : ParameterConflict) : String :=
  "parameter " ++ conflict.key.shown ++ " bound with " ++ toString conflict.bound
    ++ " columns, referenced with " ++ toString conflict.referenced

/-- The parameters of a statement, in the order in which they first occur. -/
structure ParameterMap where
  bindings : List ParameterBinding
deriving DecidableEq

namespace ParameterMap

/-- The map without parameters. -/
def empty : ParameterMap :=
  ⟨[]⟩

instance : Inhabited ParameterMap := ⟨empty⟩

/-- The database names of a parameter that has occurred. -/
def get? (map : ParameterMap) (key : ParameterKey) : Option (List String) :=
  (map.bindings.find? (·.key = key)).map (·.nativeNames)

/-- The database names of a parameter, which are made when it first occurs. -/
def bind (map : ParameterMap) (parameter : Parameter) :
    Except ParameterConflict (List String × ParameterMap) :=
  let key := parameter.key
  let count := parameter.type.columnCount
  match map.get? key with
  | some names =>
    if names.length = count then .ok (names, map) else .error ⟨key, names.length, count⟩
  | none =>
    let names := (List.range' 1 count).map key.nativeName
    .ok (names, ⟨map.bindings ++ [⟨key, names⟩]⟩)

end ParameterMap

end EntitySql
