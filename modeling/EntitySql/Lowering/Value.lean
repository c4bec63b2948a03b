import EntitySql.Decimal.Layout
import EntitySql.Lowering.Operand

/-!
# Values

How literals, parameters, properties, arithmetic and case distinctions are lowered. A composite
value becomes one column for each of its parts, and arithmetic works on each column by itself.
-/

namespace EntitySql.Lowering

open Sql (Columns Fragment bracketed qualified quoted)

/-- The text of a constant. -/
def literalText : LiteralValue → Lowering String
  | .null => return "NULL"
  | .boolean true => return "TRUE"
  | .boolean false => return "FALSE"
  | .integer value => return toString value.toInt
  | .double value =>
    if value.isFinite then return value.text else reject (.notFinite value.text)
  | .string text => return quoted text
  | .date text | .timestamp text => return "JULIANDAY(" ++ quoted text ++ ")"

/-- The columns of a literal; `NULL` has as many as its type. -/
def literal (l : Literal) : Lowering Columns :=
  match l.value with
  | .null => return nullColumns l.parenthesized l.type.columnCount
  | value => do
    let text ← literalText value
    return [Fragment.parenthesizedIf l.parenthesized text]

/-- The columns of a parameter. One without a name has no place where values are written. -/
def parameter (p : Parameter) : Lowering Columns := do
  let kind := (← scope).kind
  if p.name.isNone && (kind = .insert || kind = .update) then
    violate (.unnamedParameter p.index)
  let names ← bindParameter p
  return names.map Fragment.ofText

/-- A column of a property: a column of the view in a query, else the column of the table. -/
def propertyColumn (aliasName : String) (kind : StatementKind) (column : MappedColumn) : String :=
  if kind = .select then qualified aliasName column.viewName
  else
    match column.source with
    | .column name => bracketed name
    | .classId id => id.text

/-- The columns of a property. -/
def property (p : PropertyName) : Lowering Columns :=
  match p.target with
  | .derived columns => return columns.map fun column => qualified p.aliasName column
  | .ofClass id => do
    let catalog ← catalog
    let map ← ofCatalog (catalog.classMap id)
    match map.property p.access with
    | [] =>
      let c ← ofCatalog (catalog.classDef id)
      fail (.catalog (.propertyNotFound c.fullName p.access))
    | columns =>
      let kind := (← scope).kind
      return columns.map fun column => propertyColumn p.aliasName kind column

/-- The column of a value of an enumeration. -/
def enumerator (value : LiteralValue) : Lowering Columns := do
  return [Fragment.ofText (← literalText value)]

/-- The columns of an arithmetic expression. -/
def arithmetic (lhs : Operand) (op : ArithmeticOperator) (rhs : Operand) (parenthesized : Bool) :
    Lowering Columns := do
  let (lhs, rhs) ← lhs.lowerAligned rhs
  return List.zipWith
    (fun (l r : Fragment) => (l ++ (" " ++ op.sql ++ " ") ++ r).parenthesizedIf parenthesized)
    lhs rhs

/-- The columns of a value with a sign. -/
def sign (op : SignOperator) (operand : Operand) : Lowering Columns := do
  return (← operand.lower).map fun column => op.sql ++ column

/-- One branch of a case distinction. -/
def caseBranch (branch : CaseBranch Operand) : Lowering Fragment := do
  let condition ← branch.condition.single "CASE WHEN condition"
  let value ← branch.value.single "CASE THEN value"
  return " WHEN " ++ condition ++ " THEN " ++ value

/-- The column of a case distinction. -/
def case (branches : List (CaseBranch Operand)) (otherwise : Option Operand) :
    Lowering Columns := do
  let branches ← branches.mapM caseBranch
  let otherwise ← Operand.single? otherwise "CASE ELSE value"
  let last : Fragment :=
    match otherwise with
    | none => ""
    | some value => " ELSE " ++ value
  return ["CASE" ++ Fragment.join "" branches ++ last ++ " END"]

/-- The column of a choice between two values. -/
def iif (condition consequent alternative : Operand) : Lowering Columns := do
  let condition ← condition.single "IIF condition"
  let consequent ← consequent.single "IIF value"
  let alternative ← alternative.single "IIF value"
  return ["IIF(" ++ condition ++ "," ++ consequent ++ "," ++ alternative ++ ")"]

/-- The class and the number of an instance, as arguments of a function. -/
def instanceArguments (aliasName : String) : String :=
  qualified aliasName "ECClassId" ++ "," ++ qualified aliasName "ECInstanceId"

/-- The column of a property that is looked up by its path when the query runs. -/
def extractProperty (aliasName access : String) : Columns :=
  ["extract_prop(" ++ instanceArguments aliasName ++ "," ++ quoted access ++ ")"]

/-- The column of a whole instance. -/
def extractInstance (aliasName : String) : Columns :=
  ["extract_inst(" ++ instanceArguments aliasName ++ ")"]

/-- The column of a subquery. -/
def subquery (select : Lowering Unit) : Lowering Columns := do
  return [(← capture select).parenthesized]

/-- The column of a list of values. -/
def list (values : List Operand) : Lowering Columns := do
  let items ← values.mapM fun value => value.single "IN list item"
  return [(Fragment.join "," items).parenthesized]

/-! ## Casts -/

/-- A column cast to a primitive type. -/
def castColumn (column : Fragment) : PrimitiveType → Fragment
  | .boolean => "CASE WHEN " ++ column ++ "<>0 THEN 1 ELSE 0 END"
  | .binary | .geometry => "CAST(" ++ column ++ " AS BLOB)"
  | .dateTime => "CAST(" ++ column ++ " AS TIMESTAMP)"
  | .double | .point2d | .point3d => "CAST(" ++ column ++ " AS REAL)"
  | .integer | .long => "CAST(" ++ column ++ " AS INTEGER)"
  | .string => "CAST(" ++ column ++ " AS TEXT)"

/-- The columns of a cast. Each column is cast by itself, unless the operand has the type
already. -/
def cast (operand : Operand) (target : ValueType) : Lowering Columns :=
  if operand.exp.isNull then
    return nullColumns operand.exp.isParenthesized target.columnCount
  else
    match target.primitive? with
    | none => reject (.castTarget target)
    | some type => do
      let columns ← operand.lower
      if columns.length ≠ target.columnCount then
        reject (.castWidth columns.length type)
      if operand.exp.type.primitive? = some type then return columns
      else return columns.map fun column => castColumn column type

end EntitySql.Lowering
