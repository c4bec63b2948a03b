import EntitySql.Lowering.Operand

/-!
# Function calls

A call of a function that the registry knows is checked against it and written as it says. Any other
call is passed on as it stands.
-/

namespace EntitySql.Lowering

open Sql (Fragment)

/-- Where a call stands. -/
inductive CallSite where
  /-- In an expression. -/
  | expression
  /-- In front of a window. -/
  | window
  /-- In a `FROM` clause. -/
  | source
deriving DecidableEq

/-- A call in the database. A window would stand between the two parts. -/
structure LoweredCall where
  call : Fragment
  suffix : String

/-- The call without a window. -/
def LoweredCall.sql (c : LoweredCall) : Fragment :=
  c.call ++ c.suffix

/-- The arguments of a call, with commas between them. -/
def callArguments (c : FunctionCall Operand) : Lowering Fragment :=
  if c.star then return "*"
  else do
    let args ← c.args.zipIdx.mapM fun (arg, i) =>
      arg.single ("Argument " ++ toString (i + 1) ++ " of function '" ++ c.name ++ "'")
    return Fragment.join "," args

/-- A call under a name. -/
def callText (name : String) (c : FunctionCall Operand) : Lowering Fragment := do
  let args ← callArguments c
  return (name ++ "(" ++ c.quantifier.sql) ++ args ++ ")"

/-- What is wrong with a call of a known function at some place. -/
def callFault? (function : FunctionDef) (site : CallSite) (count : Nat) : Option Fault :=
  if function.kind = .window && site ≠ .window then
    some (.windowFunctionWithoutOver function.name)
  else if function.kind = .tableValued && site ≠ .source then
    some (.tableFunctionOutsideFrom function.name)
  else if !function.accepts count then
    some (.argumentCount function.name count)
  else none

/-- A call at some place. -/
def call (c : FunctionCall Operand) (site : CallSite) : Lowering LoweredCall := do
  let env ← environment
  if env.options.isDisabled c.name then
    reject (.disabledFunction c.name)
  match env.functions.find? c.name with
  | none => return ⟨← callText c.name c, ""⟩
  | some function =>
    if let some fault := callFault? function site (if c.star then 1 else c.args.length) then
      reject fault
    match function.form with
    | .plain => return ⟨← callText function.name c, ""⟩
    | .aggregatePredicate native => return ⟨← callText native c, "<>0"⟩
    | .julianDay => return ⟨Fragment.ofText ("JULIANDAY(" ++ function.name ++ ")"), ""⟩

end EntitySql.Lowering
