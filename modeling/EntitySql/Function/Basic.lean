import EntitySql.Schema.ValueType
import EntitySql.Text.Ascii

/-!
# Functions

What is known about a function that statements can call: where it may stand, how many arguments it
takes, and how a call of it is written in the database.
-/

namespace EntitySql

/-- Where a function may stand. -/
inductive FunctionKind where
  /-- Wherever a value may stand. -/
  | scalar
  | aggregate
  /-- Only with a window. -/
  | window
  /-- Only as a source of rows. -/
  | tableValued
deriving DecidableEq

/-- How a call is written in the database. -/
inductive CallForm where
  /-- As it stands. -/
  | plain
  /-- As a numeric aggregate whose result is compared with zero. -/
  | aggregatePredicate (native : String)
  /-- As a keyword without arguments, converted to a day number. -/
  | julianDay
deriving DecidableEq

/-- A function that statements can call. -/
structure FunctionDef where
  name : String
  kind : FunctionKind
  form : CallForm
  minArgs : Nat
  /-- The greatest number of arguments, if there is one. -/
  maxArgs : Option Nat
  returns : Option PrimitiveType
  description : String
deriving DecidableEq

/-- Whether a call may have this many arguments. -/
def FunctionDef.accepts (function : FunctionDef) (count : Nat) : Bool :=
  function.minArgs ≤ count && function.maxArgs.all (count ≤ ·)

end EntitySql
