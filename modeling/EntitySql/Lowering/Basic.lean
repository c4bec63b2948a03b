import EntitySql.Catalog.Basic
import EntitySql.Error
import EntitySql.Function.Registry
import EntitySql.Options
import EntitySql.Sql.Buffer
import EntitySql.Syntax.Reference

/-!
# The course of lowering

A `Lowering` reads its surroundings, works on a state and may fail. The state outlives a failure:
issues and parameters stay, and what was opened on the way is closed again. The combinators
`nested`, `withScope` and `capture` open something, run, and close it whether the run succeeds or
not.
-/

namespace EntitySql

/-! ## Surroundings and state -/

/-- Texts that stand in for whole statements in place of their lowering. -/
structure StatementTexts where
  select : Select Exp Source → String
  withSelect : WithSelect → String
  insert : Insert → String
  update : Update → String
  delete : Delete → String

/-- What lowering reads and never changes. -/
structure Environment where
  catalog : Catalog
  options : Options
  functions : Registry
  /-- The source that a class name stands for in a query. -/
  view : ClassName → PropertyUsage → Except LoweringError String
  /-- Texts to use instead of lowering statements. -/
  texts : Option StatementTexts
  /-- Whether the statement runs on the primary connection, which alone can change instances. -/
  primary : Bool

/-- Where in a statement lowering is. -/
structure Scope where
  kind : StatementKind
  /-- Whether no other select encloses this place. -/
  isRoot : Bool
  /-- Whether selected columns get the aliases of their items. -/
  derivedAliases : Bool
  /-- Whether the select has a `FROM` clause. -/
  hasFrom : Bool
deriving DecidableEq

/-- The scope outside of all selects. -/
def Scope.outermost : Scope :=
  ⟨.select, true, true, true⟩

/-- The scope of a statement that changes instances. -/
def Scope.change (kind : StatementKind) : Scope :=
  ⟨kind, true, false, false⟩

/-- What lowering has found so far. -/
structure State where
  buffer : Sql.Buffer
  anchors : Sql.AnchorTable
  parameters : ParameterMap
  /-- The scopes that are open, the innermost first. -/
  scopes : List Scope
  /-- The anchor for the condition of the next select. -/
  pending : Option Sql.AnchorId
  /-- How many expressions enclose this place. -/
  depth : Nat
  issues : List Issue

namespace State

/-- The state at the start. -/
def initial : State :=
  ⟨.empty, .empty, .empty, [], none, 0, []⟩

instance : Inhabited State := ⟨initial⟩

/-- The state for the next statement: only parameters and issues stay. -/
def reset (s : State) : State :=
  { initial with parameters := s.parameters, issues := s.issues }

/-- The innermost scope. -/
def scope (s : State) : Scope :=
  s.scopes.headD .outermost

end State

/-! ## The monad -/

/-- A step of lowering with a result of type `α`. -/
def Lowering (α : Type) : Type :=
  Environment → State → Except LoweringError α × State

namespace Lowering

variable {α β : Type}

/-- Goes on with the result of a step, unless it failed. -/
def andThen (step : Lowering α) (next : α → Lowering β) : Lowering β := fun env s =>
  match step env s with
  | (.ok a, s) => next a env s
  | (.error error, s) => (.error error, s)

instance : Monad Lowering where
  pure a := fun _ s => (.ok a, s)
  bind := andThen

theorem pure_apply (a : α) (env : Environment) (s : State) :
    (pure a : Lowering α) env s = (.ok a, s) :=
  rfl

/-- The next step runs in the state that the first one leaves, unless that one fails. -/
theorem bind_apply (step : Lowering α) (next : α → Lowering β) (env : Environment) (s : State) :
    (step >>= next) env s =
      match step env s with
      | (.ok a, s) => next a env s
      | (.error error, s) => (.error error, s) :=
  rfl

instance : LawfulMonad Lowering :=
  LawfulMonad.mk' Lowering
    (fun x => by
      funext env s
      show Lowering.andThen _ _ env s = x env s
      unfold andThen
      rcases x env s with ⟨_ | _, _⟩ <;> rfl)
    (fun _ _ => rfl)
    (fun x f g => by
      funext env s
      show Lowering.andThen (Lowering.andThen x f) g env s
        = Lowering.andThen x (fun a => Lowering.andThen (f a) g) env s
      unfold andThen
      rcases x env s with ⟨_ | _, _⟩ <;> rfl)

/-! ## Failing -/

/-- Fails. -/
def fail (error : LoweringError) : Lowering α := fun _ s =>
  (.error error, s)

/-- Fails because the tree of the statement is not one that a statement has. -/
def violate (violation : Violation) : Lowering α :=
  fail (.internal violation)

/-- Fails because the statement is at fault, and reports the fault. -/
def reject (fault : Fault) : Lowering α := fun _ s =>
  (.error (.invalid fault), { s with issues := s.issues ++ [fault.issue] })

/-- A result, or a failure that is not reported. -/
def ofExcept (result : Except LoweringError α) : Lowering α := fun _ s =>
  (result, s)

/-- The answer of a catalog. -/
def ofCatalog (answer : Except CatalogError α) : Lowering α :=
  ofExcept (answer.mapError .catalog)

/-- The result of a step that can break a rule for trees. -/
def ofRule (result : Except Violation α) : Lowering α :=
  ofExcept (result.mapError .internal)

/-! ## Reading -/

/-- The surroundings. -/
def environment : Lowering Environment := fun env s =>
  (.ok env, s)

/-- The catalog. -/
def catalog : Lowering Catalog := fun env s =>
  (.ok env.catalog, s)

/-- The innermost scope. -/
def scope : Lowering Scope := fun _ s =>
  (.ok s.scope, s)

/-- Whether no select is open. -/
def isOutermost : Lowering Bool := fun _ s =>
  (.ok s.scopes.isEmpty, s)

/-! ## Opening and closing -/

/-- Runs a step one level deeper, if the depth is still allowed there. -/
def nested (step : Lowering α) : Lowering α := fun env s =>
  if env.options.maxDepth.toNat < s.depth + 1 then
    reject (.tooDeep env.options.maxDepth.toNat) env s
  else
    let (result, s) := step env { s with depth := s.depth + 1 }
    (result, { s with depth := s.depth - 1 })

/-- Runs a step in a scope of its own. -/
def withScope (scope : Scope) (step : Lowering α) : Lowering α := fun env s =>
  let (result, s) := step env { s with scopes := scope :: s.scopes }
  (result, { s with scopes := s.scopes.tail })

/-- The output of a step, which does not go to the buffer. -/
def capture (step : Lowering Unit) : Lowering Sql.Fragment := fun env s =>
  let (result, s) := step env { s with buffer := s.buffer.pushFrame }
  let (output, buffer) := s.buffer.popFrame
  (result.map fun _ => output, { s with buffer })

/-! ## Changing the state -/

/-- Adds output. -/
def append (sql : Sql.Fragment) : Lowering Unit := fun _ s =>
  (.ok (), { s with buffer := s.buffer.append sql })

/-- The database names of a parameter. -/
def bindParameter (parameter : Parameter) : Lowering (List String) := fun _ s =>
  match s.parameters.bind parameter with
  | .ok (names, parameters) => (.ok names, { s with parameters })
  | .error conflict => (.error (.internal (.parameter conflict)), s)

/-- Makes a new anchor for the condition of the next select. -/
def reserveAnchor : Lowering Sql.AnchorId := fun _ s =>
  let (id, anchors) := s.anchors.reserve
  (.ok id, { s with anchors, pending := some id })

/-- Takes the anchor that waits for a select, if there is one. -/
def takePending : Lowering (Option Sql.AnchorId) := fun _ s =>
  (.ok s.pending, { s with pending := none })

/-- Puts the parts of a subquery into an anchor. -/
def captureAt (id : Sql.AnchorId) (select : Sql.CapturedSelect) : Lowering Unit := fun _ s =>
  match s.anchors.capture id select with
  | .ok anchors => (.ok (), { s with anchors })
  | .error error => (.error (.internal (.anchor error)), s)

/-- Takes the parts of the subquery out of an anchor. -/
def takeCapture (id : Sql.AnchorId) : Lowering Sql.CapturedSelect := fun _ s =>
  match s.anchors.takeCapture id with
  | .ok (select, anchors) => (.ok select, { s with anchors })
  | .error error => (.error (.internal (.anchor error)), s)

/-- Gives an anchor its text. -/
def resolveAnchor (id : Sql.AnchorId) (replacement : Sql.Fragment) : Lowering Unit := fun _ s =>
  match s.anchors.resolve id replacement with
  | .ok anchors => (.ok (), { s with anchors })
  | .error error => (.error (.internal (.anchor error)), s)

end Lowering

end EntitySql
