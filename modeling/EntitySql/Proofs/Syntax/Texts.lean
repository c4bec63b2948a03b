import EntitySql.Lowering.Exp
import EntitySql.Proofs.Syntax.Map

/-!
# Replacing the texts of a statement

The texts of a statement are the contents of its string, date and time constants. `mapTexts` puts
other texts in their place and leaves the rest of the statement alone. Nothing that lowering asks
about an expression depends on them: neither its shape nor its type, nor the properties that it
refers to.
-/

namespace EntitySql

/-- The constant with another text. -/
def LiteralValue.mapTexts (f : String → String) : LiteralValue → LiteralValue
  | .string text => .string (f text)
  | .date text => .date (f text)
  | .timestamp text => .timestamp (f text)
  | .null => .null
  | .boolean value => .boolean value
  | .integer value => .integer value
  | .double value => .double value

/-- The literal with another text. -/
def Literal.mapTexts (f : String → String) (l : Literal) : Literal :=
  ⟨l.value.mapTexts f, l.type, l.parenthesized⟩

mutual

/-- The expression with other texts. -/
def Exp.mapTexts (f : String → String) : Exp → Exp
  | .literal l => .literal (l.mapTexts f)
  | .parameter p => .parameter p
  | .property p => .property p
  | .enumerator enumeration name value => .enumerator enumeration name (value.mapTexts f)
  | .cast operand target => .cast (operand.mapTexts f) target
  | .arithmetic lhs op rhs type parenthesized =>
    .arithmetic (lhs.mapTexts f) op (rhs.mapTexts f) type parenthesized
  | .sign op operand type => .sign op (operand.mapTexts f) type
  | .call c => .call (callTexts f c)
  | .case branches otherwise type =>
    .case (branchTexts f branches) (optionTexts f otherwise) type
  | .iif condition consequent alternative type =>
    .iif (condition.mapTexts f) (consequent.mapTexts f) (alternative.mapTexts f) type
  | .navigation ⟨property, id, relationship, aliasName⟩ =>
    .navigation ⟨property, id.mapTexts f, optionTexts f relationship, aliasName⟩
  | .extractProperty aliasName access type => .extractProperty aliasName access type
  | .extractInstance aliasName => .extractInstance aliasName
  | .subquery select => .subquery (selectTexts f select)
  | .list values => .list (listTexts f values)
  | .typeList entries => .typeList entries
  | .window c filter overWindow =>
    .window (callTexts f c) (optionTexts f filter) (overTexts f overWindow)
  | .boolean lhs op rhs parenthesized =>
    .boolean (lhs.mapTexts f) op (rhs.mapTexts f) parenthesized
  | .not operand parenthesized => .not (operand.mapTexts f) parenthesized
  | .between operand lower upper negated =>
    .between (operand.mapTexts f) (lower.mapTexts f) (upper.mapTexts f) negated
  | .like operand pattern escape negated =>
    .like (operand.mapTexts f) (pattern.mapTexts f) (optionTexts f escape) negated
  | .quantified operand op quantifier select =>
    .quantified (operand.mapTexts f) op quantifier (selectTexts f select)
  | .subqueryTest test select => .subqueryTest test (selectTexts f select)

/-- The expressions with other texts. -/
def listTexts (f : String → String) : List Exp → List Exp
  | [] => []
  | exp :: exps => exp.mapTexts f :: listTexts f exps

/-- The expression with other texts, if there is one. -/
def optionTexts (f : String → String) : Option Exp → Option Exp
  | none => none
  | some exp => some (exp.mapTexts f)

/-- The call with other texts. -/
def callTexts (f : String → String) : FunctionCall Exp → FunctionCall Exp
  | ⟨name, args, quantifier, star, type⟩ => ⟨name, listTexts f args, quantifier, star, type⟩

/-- The branches with other texts. -/
def branchTexts (f : String → String) : List (CaseBranch Exp) → List (CaseBranch Exp)
  | [] => []
  | ⟨condition, value⟩ :: branches =>
    ⟨condition.mapTexts f, value.mapTexts f⟩ :: branchTexts f branches

/-- The keys of a partition with other texts. -/
def partitionTexts (f : String → String) : List (PartitionKey Exp) → List (PartitionKey Exp)
  | [] => []
  | ⟨exp, collation⟩ :: keys => ⟨exp.mapTexts f, collation⟩ :: partitionTexts f keys

/-- The keys of a sort with other texts. -/
def sortTexts (f : String → String) : List (SortKey Exp) → List (SortKey Exp)
  | [] => []
  | ⟨exp, direction, nulls⟩ :: keys => ⟨exp.mapTexts f, direction, nulls⟩ :: sortTexts f keys

/-- The start of a frame with other texts. -/
def startTexts (f : String → String) : FrameStart Exp → FrameStart Exp
  | .currentRow => .currentRow
  | .unboundedPreceding => .unboundedPreceding
  | .preceding offset => .preceding (offset.mapTexts f)

/-- The bound of a frame with other texts. -/
def boundTexts (f : String → String) : FrameBound Exp → FrameBound Exp
  | .currentRow => .currentRow
  | .unboundedPreceding => .unboundedPreceding
  | .preceding offset => .preceding (offset.mapTexts f)
  | .following offset => .following (offset.mapTexts f)
  | .unboundedFollowing => .unboundedFollowing

/-- The rows of a frame with other texts. -/
def extentTexts (f : String → String) : FrameExtent Exp → FrameExtent Exp
  | .start start => .start (startTexts f start)
  | .between first second => .between (boundTexts f first) (boundTexts f second)

/-- The frame with other texts, if there is one. -/
def frameTexts (f : String → String) : Option (WindowFrame Exp) → Option (WindowFrame Exp)
  | none => none
  | some ⟨unit, extent, exclusion⟩ => some ⟨unit, extentTexts f extent, exclusion⟩

/-- The window with other texts. -/
def windowTexts (f : String → String) : WindowSpec Exp → WindowSpec Exp
  | ⟨base, partitionBy, orderBy, frame⟩ =>
    ⟨base, partitionTexts f partitionBy, sortTexts f orderBy, frameTexts f frame⟩

/-- The window of a window function with other texts. -/
def overTexts (f : String → String) : WindowOver Exp → WindowOver Exp
  | .spec window => .spec (windowTexts f window)
  | .name name => .name name

/-- The named windows with other texts. -/
def windowListTexts (f : String → String) :
    List (WindowDefinition Exp) → List (WindowDefinition Exp)
  | [] => []
  | ⟨name, window⟩ :: windows => ⟨name, windowTexts f window⟩ :: windowListTexts f windows

/-- The items with other texts. -/
def itemTexts (f : String → String) : List (SelectItem Exp) → List (SelectItem Exp)
  | [] => []
  | ⟨exp, aliasName, nestedAlias⟩ :: items =>
    ⟨exp.mapTexts f, aliasName, nestedAlias⟩ :: itemTexts f items

/-- The limit with other texts, if there is one. -/
def limitTexts (f : String → String) : Option (Limit Exp) → Option (Limit Exp)
  | none => none
  | some ⟨count, offset⟩ => some ⟨count.mapTexts f, optionTexts f offset⟩

/-- The single select with other texts. -/
def coreTexts (f : String → String) : SelectCore Exp Source → SelectCore Exp Source
  | ⟨quantifier, items, sources, condition, groupBy, having, windows, orderBy, limit⟩ =>
    { quantifier
      items := itemTexts f items
      sources := sourceListTexts f sources
      condition := optionTexts f condition
      groupBy := listTexts f groupBy
      having := optionTexts f having
      windows := windowListTexts f windows
      orderBy := sortTexts f orderBy
      limit := limitTexts f limit }

/-- The further selects with other texts. -/
def armTexts (f : String → String) : List (CompoundArm Exp Source) → List (CompoundArm Exp Source)
  | [] => []
  | ⟨op, core⟩ :: arms => ⟨op, coreTexts f core⟩ :: armTexts f arms

/-- The select with other texts. -/
def selectTexts (f : String → String) : Select Exp Source → Select Exp Source
  | ⟨first, rest⟩ => ⟨coreTexts f first, armTexts f rest⟩

/-- The sources with other texts. -/
def sourceListTexts (f : String → String) : List Source → List Source
  | [] => []
  | source :: sources => source.mapTexts f :: sourceListTexts f sources

/-- The kind of join with other texts. -/
def joinTexts (f : String → String) : JoinKind Exp → JoinKind Exp
  | .cross => .cross
  | .natural type => .natural type
  | .on type condition => .on type (condition.mapTexts f)
  | .using type columns => .using type columns
  | .relationship link direction => .relationship link direction

/-- The source with other texts. -/
def Source.mapTexts (f : String → String) : Source → Source
  | .ofClass c => .ofClass c
  | .join lhs rhs kind => .join (lhs.mapTexts f) (rhs.mapTexts f) (joinTexts f kind)
  | .subquery select aliasName => .subquery (selectTexts f select) aliasName
  | .function c aliasName => .function (callTexts f c) aliasName
  | .commonTable name aliasName => .commonTable name aliasName

end

namespace Statement

/-- The statement with other texts. -/
def mapTexts (f : String → String) : Statement → Statement
  | .select s => .select (selectTexts f s)
  | .withSelect s =>
    .withSelect
      { s with
        tables := s.tables.map fun table => { table with select := selectTexts f table.select }
        select := selectTexts f s.select }
  | .insert s => .insert { s with values := s.values.map (·.mapTexts f) }
  | .update s =>
    .update
      { s with
        assignments := s.assignments.map fun a => { a with value := a.value.mapTexts f }
        condition := s.condition.map (·.mapTexts f) }
  | .delete s => .delete { s with condition := s.condition.map (·.mapTexts f) }

end Statement

/-! ## Clause by clause -/

section Clauses

variable (f : String → String)

/-- In the recursion over expressions, texts are replaced in each item of a list. -/
theorem listTexts_eq (exps : List Exp) : listTexts f exps = exps.map (·.mapTexts f) := by
  induction exps with
  | nil => rw [listTexts, List.map_nil]
  | cons exp exps ih => rw [listTexts, ih, List.map_cons]

/-- In the recursion over expressions, texts are replaced in one that may be missing. -/
theorem optionTexts_eq (exp : Option Exp) : optionTexts f exp = exp.map (·.mapTexts f) := by
  cases exp <;> rw [optionTexts] <;> rfl

/-- In a call, texts are replaced in the arguments. -/
theorem callTexts_eq (c : FunctionCall Exp) : callTexts f c = c.map (·.mapTexts f) := by
  rw [callTexts, listTexts_eq, FunctionCall.map]

/-- In branches, texts are replaced in the conditions and values. -/
theorem branchTexts_eq (branches : List (CaseBranch Exp)) :
    branchTexts f branches = branches.map (.map (·.mapTexts f)) := by
  induction branches with
  | nil => rw [branchTexts, List.map_nil]
  | cons branch branches ih => rw [branchTexts, ih, List.map_cons, CaseBranch.map]

/-- In keys of partitions, texts are replaced in the expressions. -/
theorem partitionTexts_eq (keys : List (PartitionKey Exp)) :
    partitionTexts f keys = keys.map (.map (·.mapTexts f)) := by
  induction keys with
  | nil => rw [partitionTexts, List.map_nil]
  | cons key keys ih => rw [partitionTexts, ih, List.map_cons, PartitionKey.map]

/-- In keys of orders, texts are replaced in the expressions. -/
theorem sortTexts_eq (keys : List (SortKey Exp)) :
    sortTexts f keys = keys.map (.map (·.mapTexts f)) := by
  induction keys with
  | nil => rw [sortTexts, List.map_nil]
  | cons key keys ih => rw [sortTexts, ih, List.map_cons, SortKey.map]

/-- In the bound of a frame, texts are replaced in the offset. -/
theorem boundTexts_eq (bound : FrameBound Exp) : boundTexts f bound = bound.map (·.mapTexts f) := by
  cases bound <;> rw [boundTexts] <;> rfl

/-- In the extent of a frame, texts are replaced in the offsets. -/
theorem extentTexts_eq (extent : FrameExtent Exp) :
    extentTexts f extent = extent.map (·.mapTexts f) := by
  cases extent with
  | start bound => cases bound <;> rw [extentTexts, startTexts] <;> rfl
  | between first second => rw [extentTexts, boundTexts_eq, boundTexts_eq]; rfl

/-- In a window, texts are replaced in all expressions. -/
theorem windowTexts_eq (window : WindowSpec Exp) :
    windowTexts f window = window.map (·.mapTexts f) := by
  have hframe (frame : Option (WindowFrame Exp)) :
      frameTexts f frame = frame.map (.map (·.mapTexts f)) := by
    cases frame with
    | none => rw [frameTexts]; rfl
    | some frame => rw [frameTexts, extentTexts_eq]; rfl
  rw [windowTexts, partitionTexts_eq, sortTexts_eq, hframe, WindowSpec.map]

/-- In the window of a call, texts are replaced in all expressions. -/
theorem overTexts_eq (overWindow : WindowOver Exp) :
    overTexts f overWindow = overWindow.map (·.mapTexts f) := by
  cases overWindow with
  | spec window => rw [overTexts, windowTexts_eq]; rfl
  | name x => rw [overTexts]; rfl

/-- In windows with a name, texts are replaced in all expressions. -/
theorem windowListTexts_eq (windows : List (WindowDefinition Exp)) :
    windowListTexts f windows = windows.map (.map (·.mapTexts f)) := by
  induction windows with
  | nil => rw [windowListTexts, List.map_nil]
  | cons definition windows ih =>
    rw [windowListTexts, ih, List.map_cons, windowTexts_eq, WindowDefinition.map]

/-- In items, texts are replaced in the expressions. -/
theorem itemTexts_eq (items : List (SelectItem Exp)) :
    itemTexts f items = items.map (.map (·.mapTexts f)) := by
  induction items with
  | nil => rw [itemTexts, List.map_nil]
  | cons item items ih => rw [itemTexts, ih, List.map_cons, SelectItem.map]

/-- In a limit, texts are replaced in the count and the offset. -/
theorem limitTexts_eq (limit : Option (Limit Exp)) :
    limitTexts f limit = limit.map (.map (·.mapTexts f)) := by
  cases limit with
  | none => rw [limitTexts]; rfl
  | some limit => rw [limitTexts, optionTexts_eq]; rfl

/-- In the recursion over sources, texts are replaced in each item of a list. -/
theorem sourceListTexts_eq (sources : List Source) :
    sourceListTexts f sources = sources.map (·.mapTexts f) := by
  induction sources with
  | nil => rw [sourceListTexts, List.map_nil]
  | cons source sources ih => rw [sourceListTexts, ih, List.map_cons]

/-- In a kind of join, texts are replaced in the condition. -/
theorem joinTexts_eq (kind : JoinKind Exp) : joinTexts f kind = kind.map (·.mapTexts f) := by
  cases kind <;> rw [joinTexts] <;> rfl

/-- In a single select, texts are replaced in the expressions and the sources. -/
theorem coreTexts_eq (c : SelectCore Exp Source) :
    coreTexts f c = c.map (·.mapTexts f) (·.mapTexts f) := by
  rw [coreTexts, itemTexts_eq, sourceListTexts_eq, optionTexts_eq, listTexts_eq, optionTexts_eq,
    windowListTexts_eq, sortTexts_eq, limitTexts_eq, SelectCore.map]

/-- In a select, texts are replaced in all single selects. -/
theorem selectTexts_eq (w : Select Exp Source) :
    selectTexts f w = w.map (·.mapTexts f) (·.mapTexts f) := by
  have harms (arms : List (CompoundArm Exp Source)) :
      armTexts f arms = arms.map (.map (·.mapTexts f) (·.mapTexts f)) := by
    induction arms with
    | nil => rw [armTexts, List.map_nil]
    | cons arm arms ih => rw [armTexts, ih, List.map_cons, coreTexts_eq, CompoundArm.map]
  rw [selectTexts, coreTexts_eq, harms, Select.map]

end Clauses

/-! ## What does not depend on texts -/

namespace Exp

-- makes the equations of the definition before the proofs that use them
attribute [local simp] mapTexts

variable (f : String → String)

/-- Whether an expression is a bare `NULL` does not depend on texts. -/
theorem isNull_mapTexts (e : Exp) : (e.mapTexts f).isNull = e.isNull := by
  cases e with
  | literal l =>
    obtain ⟨value, type, parenthesized⟩ := l
    cases value <;> rw [mapTexts] <;> rfl
  | _ => rw [mapTexts] <;> rfl

/-- Whether an expression is in parentheses does not depend on texts. -/
theorem isParenthesized_mapTexts (e : Exp) :
    (e.mapTexts f).isParenthesized = e.isParenthesized := by
  cases e <;> rw [mapTexts] <;> rfl

/-- Whether an expression is a number that is not positive does not depend on texts. -/
theorem isNonPositive_mapTexts (e : Exp) : (e.mapTexts f).isNonPositive = e.isNonPositive := by
  cases e with
  | literal l =>
    obtain ⟨value, type, parenthesized⟩ := l
    cases value <;> rw [mapTexts] <;> rfl
  | sign op => cases op <;> rw [mapTexts] <;> rfl
  | _ => rw [mapTexts] <;> rfl

/-- Whether an expression may divide rows into partitions does not depend on texts. -/
theorem isPartitionKey_mapTexts (e : Exp) :
    (e.mapTexts f).isPartitionKey = e.isPartitionKey := by
  cases e <;> rw [mapTexts] <;> rfl

/-- The type of an expression does not depend on texts. -/
theorem type_mapTexts (e : Exp) : (e.mapTexts f).type = e.type := by
  fun_induction type e with
  | case5 _ _ value hvalue =>
    rw [mapTexts]
    cases value with
    | string text => exact absurd rfl (hvalue text)
    | _ => rfl
  | case9 c => rw [mapTexts, callTexts_eq]; rfl
  | case15 _ item _ _ _ _ _ _ _ _ _ _ _ ih => rw [mapTexts, selectTexts_eq]; exact ih
  | case16 => rw [mapTexts, selectTexts_eq]; rfl
  | case19 c => rw [mapTexts, callTexts_eq]; rfl
  | _ =>
    rw [mapTexts]
    rfl

end Exp

/-- Class names are no texts, and stay. -/
theorem Source.lastClass?_mapTexts (f : String → String) (source : Source) :
    (source.mapTexts f).lastClass? = source.lastClass? := by
  fun_induction lastClass? source with
  | case1 c => rw [mapTexts, lastClass?]
  | case2 lhs rhs kind ih => rw [mapTexts, lastClass?, ih]
  | case3 source hclass hjoin =>
    cases source with
    | ofClass c => exact absurd rfl (hclass c)
    | join lhs rhs kind => exact absurd rfl (hjoin lhs rhs kind)
    | subquery | function | commonTable =>
      rw [mapTexts]
      rfl

/-! ## The same texts -/

/-- A literal stays the same if its text does. -/
theorem LiteralValue.mapTexts_id (value : LiteralValue) : value.mapTexts id = value := by
  cases value <;> rfl

/-- A node stays as it is if its texts do. -/
def Node.StaysSame : Node → Prop
  | .exp e => e.mapTexts id = e
  | .source s => s.mapTexts id = s
  | .core c => coreTexts id c = c
  | .select w => selectTexts id w = w

/-- An expression stays the same if its parts do. -/
theorem Exp.mapTexts_id_of_parts {e : Exp} (h : ∀ m ∈ e.parts, m.StaysSame) :
    e.mapTexts id = e := by
  have hexps {exps : List Exp} (hparts : e.parts = exps.map .exp) : ∀ e ∈ exps, e.mapTexts id = e :=
    fun e he => h (.exp e) (hparts ▸ List.mem_map_of_mem he)
  cases e with
  | literal l => rw [mapTexts, Literal.mapTexts, LiteralValue.mapTexts_id]
  | enumerator enumeration name value => rw [mapTexts, LiteralValue.mapTexts_id]
  | parameter | property | extractProperty | extractInstance | typeList => rw [mapTexts]
  | cast operand target => rw [mapTexts, h (.exp operand) (List.mem_cons_self ..)]
  | sign op operand type => rw [mapTexts, h (.exp operand) (List.mem_cons_self ..)]
  | not operand parenthesized => rw [mapTexts, h (.exp operand) (List.mem_cons_self ..)]
  | arithmetic lhs op rhs type parenthesized =>
    rw [mapTexts, h (.exp lhs) (by simp [parts]), h (.exp rhs) (by simp [parts])]
  | boolean lhs op rhs parenthesized =>
    rw [mapTexts, h (.exp lhs) (by simp [parts]), h (.exp rhs) (by simp [parts])]
  | call c => rw [mapTexts, callTexts_eq, FunctionCall.map_eq_self (hexps rfl)]
  | case branches otherwise type =>
    have hall := hexps rfl
    have hbranches : branches.map (.map (·.mapTexts id)) = branches :=
      List.map_eq_self fun branch hbranch => CaseBranch.map_eq_self fun a ha =>
        hall a (List.mem_append_left _ (List.mem_flatMap.2 ⟨branch, hbranch, ha⟩))
    rw [mapTexts, branchTexts_eq, hbranches, optionTexts_eq,
      Option.map_eq_self fun a ha => hall a (List.mem_append_right _ ha)]
  | iif condition consequent alternative type =>
    rw [mapTexts, h (.exp condition) (by simp [parts]), h (.exp consequent) (by simp [parts]),
      h (.exp alternative) (by simp [parts])]
  | navigation value =>
    have hall := hexps rfl
    rw [mapTexts, optionTexts_eq, hall _ (List.mem_cons_self ..),
      Option.map_eq_self fun a ha => hall a (List.mem_cons_of_mem _ ha)]
  | subquery select => rw [mapTexts, h (.select select) (List.mem_cons_self ..)]
  | subqueryTest test select => rw [mapTexts, h (.select select) (List.mem_cons_self ..)]
  | list values => rw [mapTexts, listTexts_eq, List.map_eq_self (hexps rfl)]
  | window c filter overWindow =>
    have hall := hexps rfl
    rw [mapTexts, callTexts_eq, optionTexts_eq, overTexts_eq,
      FunctionCall.map_eq_self fun a ha =>
        hall a (List.mem_append_left _ (List.mem_append_left _ ha)),
      Option.map_eq_self fun a ha => hall a (List.mem_append_left _ (List.mem_append_right _ ha)),
      WindowOver.map_eq_self fun a ha => hall a (List.mem_append_right _ ha)]
  | between operand lower upper negated =>
    rw [mapTexts, h (.exp operand) (by simp [parts]), h (.exp lower) (by simp [parts]),
      h (.exp upper) (by simp [parts])]
  | like operand pattern escape negated =>
    have hall := hexps rfl
    rw [mapTexts, optionTexts_eq, hall operand (by simp), hall pattern (by simp),
      Option.map_eq_self fun a ha => hall a (List.mem_cons_of_mem _ (List.mem_cons_of_mem _ ha))]
  | quantified operand op quantifier select =>
    rw [mapTexts, h (.exp operand) (by simp [parts]), h (.select select) (by simp [parts])]

/-- A source stays the same if its parts do. -/
theorem Source.mapTexts_id_of_parts {source : Source} (h : ∀ m ∈ source.parts, m.StaysSame) :
    source.mapTexts id = source := by
  cases source with
  | ofClass | commonTable => rw [mapTexts]
  | join lhs rhs kind =>
    have hkind : kind.map (·.mapTexts id) = kind := JoinKind.map_eq_self fun e he =>
      h (.exp e) (List.mem_cons_of_mem _ (List.mem_cons_of_mem _ (List.mem_map_of_mem he)))
    rw [mapTexts, joinTexts_eq, hkind, h (.source lhs) (by simp [parts]),
      h (.source rhs) (by simp [parts])]
  | subquery select aliasName => rw [mapTexts, h (.select select) (List.mem_cons_self ..)]
  | function c aliasName =>
    rw [mapTexts, callTexts_eq,
      FunctionCall.map_eq_self fun e he => h (.exp e) (List.mem_map_of_mem he)]

/-- Nothing changes if texts are replaced by themselves. -/
theorem Node.staysSame (n : Node) : n.StaysSame := by
  induction n using Node.induction with
  | h n ih =>
    cases n with
    | exp e => exact Exp.mapTexts_id_of_parts ih
    | source s => exact Source.mapTexts_id_of_parts ih
    | core c =>
      refine (coreTexts_eq id c).trans (SelectCore.map_eq_self (fun e he => ?_) fun s hs => ?_)
      · exact ih (.exp e) (List.mem_append_left _ (List.mem_map_of_mem he))
      · exact ih (.source s) (List.mem_append_right _ (List.mem_map_of_mem hs))
    | select w =>
      refine (selectTexts_eq id w).trans (Select.map_eq_self fun c hc => ?_)
      exact (coreTexts_eq id c).symm.trans (ih (.core c) (List.mem_map_of_mem hc))

/-- A statement stays the same if its texts are replaced by themselves. -/
theorem Statement.mapTexts_id (statement : Statement) : statement.mapTexts id = statement := by
  have hexp (e : Exp) : e.mapTexts id = e := Node.staysSame (.exp e)
  have hselect (w : Select Exp Source) : selectTexts id w = w := Node.staysSame (.select w)
  cases statement with
  | select s => rw [mapTexts, hselect]
  | withSelect s => simp only [mapTexts, hselect, List.map_id_fun', id_eq]
  | insert s => simp only [mapTexts, hexp, List.map_id_fun', id_eq]
  | update s => simp only [mapTexts, hexp, List.map_id_fun', id_eq, Option.map_id_fun']
  | delete s => simp only [mapTexts, hexp, id_eq, Option.map_id_fun']

end EntitySql
