import EntitySql.Lowering.Change
import EntitySql.Storage.View

/-!
# Statements

`Statement.prepare` lowers a statement to SQL and leaves the state ready for the next one, and
`Statement.lower` lowers a single statement from scratch.
-/

namespace EntitySql

open Sql (bracketed)

namespace Lowering

/-- The name of a common table, with its columns if they are named. -/
def tableHeader (table : CommonTable) : String :=
  let columns :=
    if table.columns.isEmpty then ""
    else "(" ++ ",".intercalate (table.columns.map bracketed) ++ ")"
  bracketed table.name ++ columns ++ " AS ("

/-- Writes a common table behind a separator. -/
def writeTable (separator : String) (table : CommonTable) : Lowering Unit := do
  append (separator ++ tableHeader table)
  table.select.write
  append ")"

/-- Writes common tables, with commas between them. -/
def writeTables : List CommonTable → Lowering Unit
  | [] => return ()
  | first :: rest => do
    writeTable "" first
    rest.forM (writeTable ",")

/-- Writes a select with common tables. -/
def withSelectBody (statement : WithSelect) : Lowering Unit := do
  append (if statement.recursive then "WITH RECURSIVE " else "WITH ")
  writeTables statement.tables
  append " "
  statement.select.write

end Lowering

namespace Statement

open Lowering (withScope writeOr)

/-- Writes a statement. -/
def write : Statement → Lowering Unit
  | .select s => s.write
  | .withSelect s => writeOr (·.withSelect s) (Lowering.withSelectBody s)
  | .insert s => writeOr (·.insert s) (withScope (.change .insert) (Lowering.insertBody s))
  | .update s => writeOr (·.update s) (withScope (.change .update) (Lowering.updateBody s))
  | .delete s => writeOr (·.delete s) (withScope (.change .delete) (Lowering.deleteBody s))

/-- Takes what was written, with all anchors replaced. -/
def finish : Lowering String := fun _ s =>
  if s.buffer.depth ≠ 0 then (.error (.internal (.openFrames s.buffer.depth)), s)
  else
    let (root, buffer) := s.buffer.takeRoot
    ((s.anchors.render root).mapError (.internal ∘ .anchor), { s with buffer })

/-- The SQL of a statement. Only queries are allowed on connections other than the primary one. -/
def prepare (statement : Statement) : Lowering String := fun env s =>
  if !env.primary && statement.kind ≠ .select then
    Lowering.reject (.notOnConnection statement.kind) env s
  else
    let (result, s) := (do statement.write; finish) env s
    (result, s.reset)

end Statement

/-- The source for a class name, by the view of the class. -/
def Catalog.viewSource (catalog : Catalog) (c : ClassName) (usage : PropertyUsage) :
    Except LoweringError String :=
  (catalog.view c usage).map (·.sql c.effectiveAlias)

/-- The surroundings of a statement on the primary connection. -/
def Environment.of (catalog : Catalog) (options : Options) (functions : Registry) : Environment :=
  ⟨catalog, options, functions, catalog.viewSource, none, true⟩

/-- A statement as it is given to the database. -/
structure LoweredStatement where
  sql : String
  parameters : ParameterMap
deriving DecidableEq

/-- Lowers a statement. The issues are those that were reported, also if lowering fails. -/
def Statement.lower (statement : Statement) (env : Environment) :
    Except LoweringError LoweredStatement × List Issue :=
  let (result, s) := statement.prepare env .initial
  (result.map (⟨·, s.parameters⟩), s.issues)

end EntitySql
