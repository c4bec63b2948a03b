import EntitySql.Proofs.Lowering.Operands
import EntitySql.Proofs.Lowering.Spec

/-!
# What the results of lowering look like

For each kind of expression, source and clause, its `Form` says how its columns or its SQL are put
together from those of its parts. What is known about the parts is left open: `Results` are
relations between the parts of a statement and what they are lowered to, and a form is stated for
any of them.

That lowering yields results of these forms is shown once (`Setting.holds`). What holds of the SQL
then follows from the forms alone, if it passes from the results of the parts to those of the whole:
if it is `Closed`.
-/

namespace EntitySql

open Lowering
open Sql (AnchorId CapturedSelect Columns Fragment Predicate bracketed qualified quoted)

/-! ## Aligned columns -/

/-- Aligned columns are the columns that were there, or `NULL` in the place of a single one. -/
theorem columns_of_align {l r : Exp} {ls rs : Columns} {columns : Columns × Columns}
    (h : align l ls r rs = .ok columns) :
    (columns.1 = ls ∨ columns.1 = nullColumns l.isParenthesized rs.length)
      ∧ (columns.2 = rs ∨ columns.2 = nullColumns r.isParenthesized ls.length) := by
  unfold align at h
  extract_lets lhs rhs at h
  split at h
  · obtain rfl := Except.ok.inj h
    exact ⟨(ite_eq_or_eq _ _ _).symm, (ite_eq_or_eq _ _ _).symm⟩
  · cases h

/-- Values that were aligned are of the same width, and they are as they were but for `NULL`. -/
theorem eq_of_align {l r : Exp} {ls rs : Columns} {pair : Columns × Columns}
    (h : align l ls r rs = .ok pair) :
    pair.1.length = pair.2.length ∧ (l.isNull = false → pair.1 = ls)
      ∧ (r.isNull = false → pair.2 = rs) := by
  unfold align at h
  extract_lets lhs rhs at h
  split at h
  next hlength =>
    obtain rfl := Except.ok.inj h
    exact ⟨hlength, fun hnull => by simp [lhs, hnull], fun hnull => by simp [rhs, hnull]⟩
  next => cases h

/-! ## Results -/

/-- What is known about the results of lowering. A select is lowered with an anchor for its
condition or without one, and its columns and its condition are what goes into the anchor. -/
structure Results where
  exp : Exp → Columns → Prop
  source : Source → Fragment → Prop
  core : SelectCore Exp Source → Option AnchorId → CapturedSelect → Fragment → Prop
  select : Select Exp Source → Option AnchorId → CapturedSelect → Fragment → Prop

namespace Results

variable (R : Results)

/-- The result of an expression with a single column. -/
def single (e : Exp) (f : Fragment) : Prop :=
  R.exp e [f]

/-- The columns of two values in the same number. -/
def aligned (lhs rhs : Exp) (columns : Columns × Columns) : Prop :=
  ∃ ls rs, R.exp lhs ls ∧ R.exp rhs rs ∧ align lhs ls rhs rs = .ok columns

/-- The columns of a bound of a range; a bare `NULL` takes the width of the operand. -/
def bound (e : Exp) (width : Nat) (columns : Columns) : Prop :=
  R.exp e columns ∨ e.isNull = true ∧ columns = nullColumns e.isParenthesized width

/-- The output of a select, of which only the symbols are known. -/
def output (w : Select Exp Source) (anchor : Option AnchorId) (captured : CapturedSelect)
    (f : Fragment) : Prop :=
  ∃ g, R.select w anchor captured g ∧ g.symbols = f.symbols

end Results

variable (S : Setting) (R : Results)

/-! ## Values -/

/-- The SQL of a constant. -/
def LiteralValue.sql : LiteralValue → String
  | .null => "NULL"
  | .boolean true => "TRUE"
  | .boolean false => "FALSE"
  | .integer value => toString value.toInt
  | .double value => value.text
  | .string text => quoted text
  | .date text | .timestamp text => "JULIANDAY(" ++ quoted text ++ ")"

/-- The columns of a property. -/
inductive PropertyName.Form : PropertyName → Columns → Prop
  | derived {p : PropertyName} {names : List String} (h : p.target = .derived names) :
    Form p (names.map fun name => qualified p.aliasName name)
  | ofClass {p : PropertyName} {id : ClassId} {map : ClassMap} (h : p.target = .ofClass id)
    (hmap : S.env.catalog.classMap id = .ok map) (kind : StatementKind) :
    Form p ((map.property p.access).map fun column => propertyColumn p.aliasName kind column)

/-- What stands last behind a keyword, if there is something. -/
def lastPart (keyword : String) : Option Fragment → Fragment
  | none => ""
  | some f => keyword ++ f

/-- A branch of a case distinction. -/
def CaseBranch.Form (branch : CaseBranch Exp) (f : Fragment) : Prop :=
  ∃ condition value, R.single branch.condition condition ∧ R.single branch.value value
    ∧ f = " WHEN " ++ condition ++ " THEN " ++ value

/-- How a function is written, and what stands behind a call of it. -/
inductive FunctionCall.WrittenAs (functions : Registry) (c : FunctionCall Exp) :
    String → String → Prop
  | unknown (h : functions.find? c.name = none) : WrittenAs functions c c.name ""
  | plain {function : FunctionDef} (h : functions.find? c.name = some function)
    (hform : function.form = .plain) : WrittenAs functions c function.name ""
  | predicate {function : FunctionDef} {native : String}
    (h : functions.find? c.name = some function)
    (hform : function.form = .aggregatePredicate native) : WrittenAs functions c native "<>0"

/-- The arguments of a call. -/
inductive FunctionCall.Arguments (c : FunctionCall Exp) : Fragment → Prop
  | star (h : c.star = true) : Arguments c "*"
  | listed {args : List Fragment} (hstar : c.star = false)
    (h : List.Forall₂ R.single c.args args) : Arguments c (Fragment.join "," args)

/-- A call. -/
inductive FunctionCall.Form (c : FunctionCall Exp) : LoweredCall → Prop
  | written {name suffix : String} {args : Fragment}
    (hname : c.WrittenAs S.env.functions name suffix) (hargs : c.Arguments R args) :
    Form c ⟨(name ++ "(" ++ c.quantifier.sql) ++ args ++ ")", suffix⟩
  | julianDay {function : FunctionDef} (h : S.env.functions.find? c.name = some function)
    (hform : function.form = .julianDay) :
    Form c ⟨Fragment.ofText ("JULIANDAY(" ++ function.name ++ ")"), ""⟩

/-! ## Windows -/

/-- A key of a sort. -/
def SortKey.Form (key : SortKey Exp) (columns : Columns) : Prop :=
  ∃ cs, R.exp key.exp cs ∧ columns = cs.map fun column : Fragment => column ++ key.suffix

/-- Columns with the collation of a key of a partition. -/
def PartitionKey.collated (key : PartitionKey Exp) (columns : Columns) : Columns :=
  match key.collation with
  | none => columns
  | some collation => columns.map (· ++ (" COLLATE " ++ collation.sql))

/-- A key of a partition. -/
def PartitionKey.Form (key : PartitionKey Exp) (columns : Columns) : Prop :=
  ∃ cs, R.exp key.exp cs ∧ columns = key.collated cs

/-- The start of a frame. -/
inductive FrameStart.Form : FrameStart Exp → Fragment → Prop
  | currentRow : Form .currentRow "CURRENT ROW"
  | unboundedPreceding : Form .unboundedPreceding "UNBOUNDED PRECEDING"
  | preceding {offset : Exp} {f : Fragment} (h : R.single offset f) :
    Form (.preceding offset) (f ++ (" " ++ "PRECEDING"))

/-- A bound of a frame. -/
inductive FrameBound.Form : FrameBound Exp → Fragment → Prop
  | currentRow : Form .currentRow "CURRENT ROW"
  | unboundedPreceding : Form .unboundedPreceding "UNBOUNDED PRECEDING"
  | unboundedFollowing : Form .unboundedFollowing "UNBOUNDED FOLLOWING"
  | preceding {offset : Exp} {f : Fragment} (h : R.single offset f) :
    Form (.preceding offset) (f ++ (" " ++ "PRECEDING"))
  | following {offset : Exp} {f : Fragment} (h : R.single offset f) :
    Form (.following offset) (f ++ (" " ++ "FOLLOWING"))

/-- The rows of a frame. -/
inductive FrameExtent.Form : FrameExtent Exp → Fragment → Prop
  | start {start : FrameStart Exp} {f : Fragment} (h : start.Form R f) : Form (.start start) f
  | between {first second : FrameBound Exp} {f g : Fragment} (hf : first.Form R f)
    (hg : second.Form R g) : Form (.between first second) ("BETWEEN " ++ f ++ " AND " ++ g)

/-- A frame. -/
def WindowFrame.Form (frame : WindowFrame Exp) (f : Fragment) : Prop :=
  ∃ extent, frame.extent.Form R extent
    ∧ f = (frame.unit.sql ++ " ") ++ extent ++ (frame.exclusion.elim "" FrameExclusion.sql)

/-- Keys behind a keyword, or nothing if there are none. -/
def keyPart (keyword : String) (lists : List Columns) : List Fragment :=
  if lists.isEmpty then [] else [keyword ++ Fragment.join "," lists.flatten]

/-- A window without the parentheses around it. -/
def WindowSpec.Form (window : WindowSpec Exp) (f : Fragment) : Prop :=
  ∃ partitionBy orderBy frame,
    List.Forall₂ (PartitionKey.Form R) window.partitionBy partitionBy
      ∧ List.Forall₂ (SortKey.Form R) window.orderBy orderBy
      ∧ Option.Rel (WindowFrame.Form R) window.frame frame
      ∧ f = Fragment.join " " ((window.base.toList.map fun name => Fragment.ofText (bracketed name))
        ++ keyPart "PARTITION BY " partitionBy ++ keyPart "ORDER BY " orderBy ++ frame.toList)

/-- The window of a window function. -/
inductive WindowOver.Form : WindowOver Exp → Fragment → Prop
  | spec {window : WindowSpec Exp} {f : Fragment} (h : window.Form R f) :
    Form (.spec window) f.parenthesized
  | name (name : String) : Form (.name name) (bracketed name)

/-- A window with its name. -/
def WindowDefinition.Form (definition : WindowDefinition Exp) (f : Fragment) : Prop :=
  ∃ g, definition.window.Form R g ∧ f = (bracketed definition.name ++ " AS ") ++ g.parenthesized

/-- The condition on the rows that a window function counts. -/
def filterPart (condition : Option Fragment) : Fragment :=
  condition.elim "" fun condition => " FILTER(WHERE " ++ condition ++ ")"

/-! ## Expressions -/

/-- The columns of an expression. -/
inductive Exp.Form : Exp → Columns → Prop
  | null {l : Literal} (h : l.value = .null) :
    Form (.literal l) (nullColumns l.parenthesized l.type.columnCount)
  | literal {l : Literal} :
    Form (.literal l) [Fragment.parenthesizedIf l.parenthesized l.value.sql]
  | parameter {p : Parameter} {names : List String} (h : S.orderly → names = p.nativeNames) :
    Form (.parameter p) (names.map Fragment.ofText)
  | property {p : PropertyName} {columns : Columns} (h : p.Form S columns) :
    Form (.property p) columns
  | enumerator {enumeration name : String} {value : LiteralValue} :
    Form (.enumerator enumeration name value) [Fragment.ofText value.sql]
  | castNull {operand : Exp} {target : ValueType} (h : operand.isNull = true) :
    Form (.cast operand target) (nullColumns operand.isParenthesized target.columnCount)
  | castSame {operand : Exp} {target : ValueType} {columns : Columns}
    (htype : operand.type.primitive? = target.primitive?) (h : R.exp operand columns) :
    Form (.cast operand target) columns
  | cast {operand : Exp} {target : ValueType} {type : PrimitiveType} {columns : Columns}
    (htype : target.primitive? = some type) (h : R.exp operand columns) :
    Form (.cast operand target) (columns.map fun column => castColumn column type)
  | arithmetic {lhs rhs : Exp} {op : ArithmeticOperator} {type : ValueType} {parenthesized : Bool}
    {p : Columns × Columns} (h : R.aligned lhs rhs p) :
    Form (.arithmetic lhs op rhs type parenthesized) (List.zipWith
      (fun (l r : Fragment) => (l ++ (" " ++ op.sql ++ " ") ++ r).parenthesizedIf parenthesized)
      p.1 p.2)
  | sign {op : SignOperator} {operand : Exp} {type : ValueType} {columns : Columns}
    (h : R.exp operand columns) :
    Form (.sign op operand type) (columns.map fun column => op.sql ++ column)
  | call {c : FunctionCall Exp} {call : LoweredCall} (h : c.Form S R call) :
    Form (.call c) [call.sql]
  | case {branches : List (CaseBranch Exp)} {otherwise : Option Exp} {type : ValueType}
    {fs : List Fragment} {last : Option Fragment}
    (hbranches : List.Forall₂ (CaseBranch.Form R) branches fs)
    (hotherwise : Option.Rel R.single otherwise last) :
    Form (.case branches otherwise type)
      ["CASE" ++ Fragment.join "" fs ++ lastPart " ELSE " last ++ " END"]
  | iif {condition consequent alternative : Exp} {type : ValueType} {c t e : Fragment}
    (hc : R.single condition c) (ht : R.single consequent t) (he : R.single alternative e) :
    Form (.iif condition consequent alternative type) ["IIF(" ++ c ++ "," ++ t ++ "," ++ e ++ ")"]
  | navigation {value : NavigationValue Exp} {id : Fragment} {relationship : Option Fragment}
    {declared : ClassId} (hid : R.single value.id id)
    (hrelationship : Option.Rel R.single value.relationship relationship) :
    Form (.navigation value) [id, relationship.getD declared.text]
  | extractProperty {aliasName access : String} {type : ValueType} :
    Form (.extractProperty aliasName access type) (Lowering.extractProperty aliasName access)
  | extractInstance {aliasName : String} :
    Form (.extractInstance aliasName) (Lowering.extractInstance aliasName)
  | subquery {w : Select Exp Source} {captured : CapturedSelect} {f : Fragment}
    (h : R.output w none captured f) : Form (.subquery w) [f.parenthesized]
  | list {values : List Exp} {fs : List Fragment} (h : List.Forall₂ R.single values fs) :
    Form (.list values) [(Fragment.join "," fs).parenthesized]
  | window {c : FunctionCall Exp} {filter : Option Exp} {overWindow : WindowOver Exp}
    {call : LoweredCall} {condition : Option Fragment} {f : Fragment} (hc : c.Form S R call)
    (hfilter : Option.Rel R.single filter condition) (hover : overWindow.Form R f) :
    Form (.window c filter overWindow)
      [call.call ++ filterPart condition ++ " OVER " ++ f ++ call.suffix]
  | typeTest {lhs : Exp} {op : BooleanOperator} {entries : List TypeEntry} {parenthesized : Bool}
    {f : Fragment} {negation : String} {filter : TypeFilter} (h : R.single lhs f)
    (hnegation : negation ∈ ["", "NOT "]) :
    Form (.boolean lhs op (.typeList entries) parenthesized)
      [(f ++ (" " ++ negation ++ filter.sql)).parenthesizedIf parenthesized]
  | boolean {lhs rhs : Exp} {op : BooleanOperator} {parenthesized : Bool} {f g : Fragment}
    (hl : R.single lhs f) (hr : R.single rhs g) :
    Form (.boolean lhs op rhs parenthesized) [(binary f op g).parenthesizedIf parenthesized]
  | compound {lhs rhs : Exp} {op : BooleanOperator} {parenthesized : Bool} {p : Columns × Columns}
    (h : R.aligned lhs rhs p) :
    Form (.boolean lhs op rhs parenthesized) [(Predicate.compound p.1 op p.2 parenthesized).sql]
  | not {operand : Exp} {parenthesized : Bool} {f : Fragment} (h : R.single operand f) :
    Form (.not operand parenthesized) [Fragment.parenthesizedIf parenthesized ("NOT " ++ f)]
  | between {operand lower upper : Exp} {negated : Bool} {columns lo hi : Columns}
    (h : R.exp operand columns)
    (hlo : R.bound lower columns.length lo) (hhi : R.bound upper columns.length hi)
    (hlower : lo.length = columns.length) (hupper : hi.length = columns.length) :
    Form (.between operand lower upper negated) [rangeTest columns lo hi negated]
  | like {operand pattern : Exp} {escape : Option Exp} {negated : Bool} {f g : Fragment}
    {last : Option Fragment} (hf : R.single operand f) (hg : R.single pattern g)
    (hescape : Option.Rel R.single escape last) :
    Form (.like operand pattern escape negated)
      [f ++ (if negated then " NOT LIKE " else " LIKE ") ++ g ++ lastPart " ESCAPE " last]
  | quantified {operand : Exp} {op : ComparisonOperator} {quantifier : Quantifier}
    {w : Select Exp Source} {columns : Columns} {id : AnchorId} {captured : CapturedSelect}
    {condition f : Fragment} (h : R.exp operand columns) (hw : R.output w (some id) captured f)
    (hcondition : quantifiedCondition columns op quantifier captured = .ok condition)
    (hid : S.final.resolved? id = some condition) :
    Form (.quantified operand op quantifier w) [quantifier.keyword ++ f.parenthesized]
  | exists {w : Select Exp Source} {captured : CapturedSelect} {f : Fragment}
    (h : R.output w none captured f) : Form (.subqueryTest .exists w) ["EXISTS" ++ f.parenthesized]

/-! ## Sources -/

/-- The source for a class name. -/
inductive ClassName.Form (c : ClassName) : Fragment → Prop
  | view {usage : PropertyUsage} {x : String} (h : S.env.view c usage = .ok x) :
    Form c (Fragment.ofText x)
  | table {map : ClassMap} (h : S.env.catalog.classMap c.classId = .ok map) :
    Form c (bracketed map.table)

/-- A join through the links of a relationship class. -/
def linkedJoin (near far link : ClassName) (nearEnd farEnd : String) (lhs links rhs : Fragment) :
    Fragment :=
  lhs ++ " INNER JOIN " ++ links
    ++ (" ON " ++ qualified link.effectiveAlias nearEnd ++ "="
      ++ qualified near.effectiveAlias "ECInstanceId")
    ++ " INNER JOIN " ++ rhs
    ++ (" ON " ++ qualified far.effectiveAlias "ECInstanceId" ++ "="
      ++ qualified link.effectiveAlias farEnd)

/-- The ends of a link. -/
def linkEnds : List String :=
  ["SourceECInstanceId", "TargetECInstanceId"]

/-- A source. -/
inductive Source.Form : Source → Fragment → Prop
  | ofClass {c : ClassName} {f : Fragment} (h : c.Form S f) : Form (.ofClass c) f
  | cross {lhs rhs : Source} {f g : Fragment} (hf : R.source lhs f) (hg : R.source rhs g) :
    Form (.join lhs rhs .cross) (f ++ " CROSS JOIN " ++ g)
  | on {lhs rhs : Source} {type : JoinType} {condition : Exp} {f g c : Fragment}
    (hf : R.source lhs f) (hg : R.source rhs g) (hc : R.single condition c) :
    Form (.join lhs rhs (.on type condition)) (f ++ (" " ++ type.sql ++ " ") ++ g ++ " ON " ++ c)
  | relationship {lhs rhs : Source} {link near far : ClassName} {direction : JoinDirection}
    {f g links : Fragment} {nearEnd farEnd : String} (hnear : near ∈ lhs.lastClass?)
    (hfar : far ∈ rhs.lastClass?) (hf : R.source lhs f) (hlinks : link.Form S links)
    (hg : R.source rhs g) (hnearEnd : nearEnd ∈ linkEnds) (hfarEnd : farEnd ∈ linkEnds) :
    Form (.join lhs rhs (.relationship link direction))
      (linkedJoin near far link nearEnd farEnd f links g)
  | subquery {w : Select Exp Source} {aliasName : String} {captured : CapturedSelect} {f : Fragment}
    (h : R.output w none captured f) :
    Form (.subquery w aliasName) (f.parenthesized ++ (" " ++ bracketed aliasName))
  | function {c : FunctionCall Exp} {aliasName : Option String} {call : LoweredCall}
    (h : c.Form S R call) : Form (.function c aliasName) (call.sql ++ aliasSuffix aliasName)
  | commonTable {name : String} {aliasName : Option String} :
    Form (.commonTable name aliasName) (Lowering.commonTable name aliasName)

/-! ## Selects -/

/-- The columns of an item as they are written, and as they are compared. -/
def SelectItem.Form (derivedAliases : Bool) (item : SelectItem Exp) (columns : Columns × Columns) :
    Prop :=
  R.exp item.exp columns.2 ∧ columns.1
    = if derivedAliases then namedColumns (item.map Exp.operand) columns.2 else columns.2

/-- The clause that limits the number of rows. -/
def Limit.Form (limit : Limit Exp) (f : Fragment) : Prop :=
  ∃ count offset, R.single limit.count count ∧ Option.Rel R.single limit.offset offset
    ∧ f = " LIMIT " ++ count ++ clause " OFFSET " offset

/-- The clause that names windows. -/
def windowsPart (windows : List Fragment) : Option Fragment :=
  if windows.isEmpty then none else some ("WINDOW " ++ Fragment.join "," windows)

/-- The clauses of a select behind its condition, one by one. -/
def SelectCore.BehindForm (c : SelectCore Exp Source) (behind : List Fragment) : Prop :=
  ∃ groupBy having windows orderBy limit, List.Forall₂ R.exp c.groupBy groupBy
    ∧ Option.Rel R.single c.having having
    ∧ List.Forall₂ (WindowDefinition.Form R) c.windows windows
    ∧ List.Forall₂ (SortKey.Form R) c.orderBy orderBy ∧ Option.Rel (Limit.Form R) c.limit limit
    ∧ behind = [columnClause " GROUP BY " groupBy, clause " HAVING " having,
      clause " " (windowsPart windows), columnClause " ORDER BY " orderBy, limit.getD .empty]

/-- What stands in a select before its condition. -/
def headText (quantifier : SetQuantifier) (sources : List Fragment)
    (items : List (Columns × Columns)) : Fragment :=
  ("SELECT " ++ quantifier.sql) ++ Fragment.join "," (items.flatMap (·.1))
    ++ columnClause " FROM " (sources.map fun source => [source])

/-- The condition of a select, or the anchor in its place. -/
def wherePart (condition : Option Fragment) : Option AnchorId → Fragment
  | none => clause " WHERE " condition
  | some id => " WHERE " ++ Fragment.ofAnchor id

/-- A single select. Its columns and its condition are what goes into an anchor. -/
inductive SelectCore.Form (c : SelectCore Exp Source) (anchor : Option AnchorId) :
    CapturedSelect → Fragment → Prop
  | intro {sources : List Fragment} {items : List (Columns × Columns)}
    {condition : Option Fragment} {behind : List Fragment}
    (hsources : List.Forall₂ R.source c.sources sources)
    (hitems : List.Forall₂ (SelectItem.Form R anchor.isNone) c.items items)
    (hcondition : Option.Rel R.single c.condition condition) (hbehind : c.BehindForm R behind) :
    Form c anchor ⟨items.flatMap (·.2), condition⟩
      (behind.foldl (· ++ ·) (headText c.quantifier sources items ++ wherePart condition anchor))

/-- Further selects. -/
inductive ArmsForm : List (CompoundArm Exp Source) → Fragment → Prop
  | nil : ArmsForm [] .empty
  | cons {arm : CompoundArm Exp Source} {arms : List (CompoundArm Exp Source)}
    {captured : CapturedSelect} {f g : Fragment} (h : R.core arm.core none captured f)
    (harms : ArmsForm arms g) : ArmsForm (arm :: arms) (((" " ++ arm.op.sql ++ " ") ++ f) ++ g)

/-- A select. -/
inductive Select.Form (w : Select Exp Source) (anchor : Option AnchorId) :
    CapturedSelect → Fragment → Prop
  | written {captured : CapturedSelect} {f g : Fragment} (h : R.core w.first anchor captured f)
    (harms : ArmsForm R w.rest g) : Form w anchor captured (f ++ g)
  | standsIn {texts : StatementTexts} (h : S.env.texts = some texts) :
    Form w anchor ⟨[], none⟩ (Fragment.ofText (texts.select w))

/-! ## Closure -/

/-- What is known about results passes from the parts to the whole. -/
structure Results.Closed : Prop where
  exp : ∀ {e columns}, Exp.Form S R e columns → R.exp e columns
  source : ∀ {source f}, Source.Form S R source f → R.source source f
  core : ∀ {c anchor captured f}, SelectCore.Form R c anchor captured f → R.core c anchor captured f
  select : ∀ {w anchor captured f},
    Select.Form S R w anchor captured f → R.select w anchor captured f

end EntitySql
