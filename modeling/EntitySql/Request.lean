import EntitySql.Codec.Options
import EntitySql.Codec.Schema
import EntitySql.Codec.Statement
import EntitySql.Json.Parser
import EntitySql.Json.Printer

/-!
# Requests

A request is a JSON text with the definition of a catalog, options and a statement. The answer is
the lowered statement, again as JSON.
-/

namespace EntitySql

/-- How deep arrays and objects may be nested in a text, where a field asks for them. -/
def textDepthLimit : Nat :=
  127

/-- Reads a text that is one JSON value, of limited depth. -/
def readText? {α : Type} (value : Json → Option α) (text : String) : Option α := do
  value (← Json.parseWithin? (some textDepthLimit) text)

/-- The options that a text holds. -/
def Options.ofText? (text : String) : Option Options :=
  readText? Options.ofJson? text

/-- The catalog whose definition a text holds. -/
def Catalog.ofText (text : String) : Except CatalogError Catalog :=
  match readText? CatalogDefinition.ofJson? text with
  | some definition => Catalog.ofDefinition definition
  | none => .error .unreadable

/-- A statement to lower, with all that it needs. -/
structure Request where
  catalog : CatalogDefinition
  options : Options
  statement : Statement

/-- Why a request has no answer. -/
inductive RequestError where
  | malformed
  | badCatalog
  | lowering (error : LoweringError)

/-- What the error is about. -/
def RequestError.message : RequestError → String
  | .malformed => "Malformed lowering request"
  | .badCatalog => "Invalid catalog definition"
  | .lowering error => error.message ++ " (status " ++ error.status.name ++ ")"

namespace Request

/-- A request, in the dialect of a text. -/
def ofJson? (json : Json) : Option Request := do
  let fields ← json.fields? ["catalog", "config", "statement"]
  return ⟨← fields.required "catalog" CatalogDefinition.ofJson?,
    ← fields.defaulted "config" .default Options.ofJson?,
    ← fields.required "statement" (Statement.ofJson? .text)⟩

/-- Answers a request with the builtin functions. -/
def answer (request : Request) : Except RequestError LoweredStatement :=
  match Catalog.ofDefinition request.catalog with
  | .error _ => .error .badCatalog
  | .ok catalog =>
    (request.statement.lower (.of catalog request.options .builtin)).1.mapError .lowering

/-- Answers a text. -/
def run (text : String) : Except RequestError String := do
  let some request := readText? ofJson? text | .error .malformed
  return (← request.answer).toJson.pretty

end Request

end EntitySql
