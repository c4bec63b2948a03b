import EntitySql.Codec.Statement
import EntitySql.Proofs.Codec.Clause
import EntitySql.Proofs.Names

/-!
# Statements are read back

Expressions and sources contain each other. Reading them back is an induction on the bound of the
reader: an expression is an object with one member, so its parts are less deep than it is.
-/

namespace EntitySql

open Json (Dialect ReadsBack depth_case_le depth_object_le depth_variant memberDepth_cons_lt)
open scoped Json

/-! ## The JSON form follows the syntax -/

/-- In the recursion over expressions, lists of them are written item by item. -/
theorem listJson_eq (exps : List Exp) : listJson exps = exps.map Exp.toJson := by
  induction exps with
  | nil => rw [listJson, List.map_nil]
  | cons e exps ih => rw [listJson, ih, List.map_cons]

/-- In the recursion over expressions, one that may be missing is written as `null` then. -/
theorem optionJson_eq (exp : Option Exp) : optionJson exp = .ofOption Exp.toJson exp := by
  cases exp <;> rw [optionJson, Json.ofOption]

/-- Calls are written as calls of any kind of arguments are. -/
theorem callJson_eq (c : FunctionCall Exp) : callJson c = c.toJson Exp.toJson := by
  obtain ⟨name, args, quantifier, star, type⟩ := c
  rw [callJson, listJson_eq, FunctionCall.toJson]

/-- Branches are written as those of any kind of expressions are. -/
theorem branchesJson_eq (branches : List (CaseBranch Exp)) :
    branchesJson branches = branches.map (CaseBranch.toJson Exp.toJson) := by
  induction branches with
  | nil => rw [branchesJson, List.map_nil]
  | cons branch branches ih =>
    obtain ⟨condition, value⟩ := branch
    rw [branchesJson, ih, List.map_cons, CaseBranch.toJson]

/-- Keys of partitions are written as those of any kind of expressions are. -/
theorem partitionJson_eq (keys : List (PartitionKey Exp)) :
    partitionJson keys = keys.map (PartitionKey.toJson Exp.toJson) := by
  induction keys with
  | nil => rw [partitionJson, List.map_nil]
  | cons key keys ih =>
    obtain ⟨exp, collation⟩ := key
    rw [partitionJson, ih, List.map_cons, PartitionKey.toJson]

/-- Keys of orders are written as those of any kind of expressions are. -/
theorem sortJson_eq (keys : List (SortKey Exp)) :
    sortJson keys = keys.map (SortKey.toJson Exp.toJson) := by
  induction keys with
  | nil => rw [sortJson, List.map_nil]
  | cons key keys ih =>
    obtain ⟨exp, direction, nulls⟩ := key
    rw [sortJson, ih, List.map_cons, SortKey.toJson]

/-- The start of a frame is written as that of any kind of expressions is. -/
theorem startJson_eq (bound : FrameStart Exp) : startJson bound = bound.toJson Exp.toJson := by
  cases bound <;> rw [startJson, FrameStart.toJson]

/-- The bounds of a frame are written as those of any kind of expressions are. -/
theorem boundJson_eq (bound : FrameBound Exp) : boundJson bound = bound.toJson Exp.toJson := by
  cases bound <;> rw [boundJson, FrameBound.toJson]

/-- The extent of a frame is written as that of any kind of expressions is. -/
theorem extentJson_eq (extent : FrameExtent Exp) :
    extentJson extent = extent.toJson Exp.toJson := by
  cases extent with
  | start bound => rw [extentJson, startJson_eq, FrameExtent.toJson]
  | between first second => rw [extentJson, boundJson_eq, boundJson_eq, FrameExtent.toJson]

/-- Frames are written as those of any kind of expressions are. -/
theorem frameJson_eq (frame : Option (WindowFrame Exp)) :
    frameJson frame = .ofOption (WindowFrame.toJson Exp.toJson) frame := by
  cases frame with
  | none => rw [frameJson, Json.ofOption]
  | some frame =>
    obtain ⟨unit, extent, exclusion⟩ := frame
    rw [frameJson, extentJson_eq, Json.ofOption, WindowFrame.toJson]

/-- Windows are written as those of any kind of expressions are. -/
theorem windowJson_eq (window : WindowSpec Exp) : windowJson window = window.toJson Exp.toJson := by
  obtain ⟨base, partitionBy, orderBy, frame⟩ := window
  rw [windowJson, partitionJson_eq, sortJson_eq, frameJson_eq, WindowSpec.toJson]

/-- The window of a call is written as that of any kind of expressions is. -/
theorem overJson_eq (overWindow : WindowOver Exp) :
    overJson overWindow = overWindow.toJson Exp.toJson := by
  cases overWindow with
  | spec window => rw [overJson, windowJson_eq, WindowOver.toJson]
  | name text => rw [overJson, WindowOver.toJson]

/-- Windows with a name are written as those of any kind of expressions are. -/
theorem windowsJson_eq (windows : List (WindowDefinition Exp)) :
    windowsJson windows = windows.map (WindowDefinition.toJson Exp.toJson) := by
  induction windows with
  | nil => rw [windowsJson, List.map_nil]
  | cons definition windows ih =>
    obtain ⟨name, window⟩ := definition
    rw [windowsJson, windowJson_eq, ih, List.map_cons, WindowDefinition.toJson]

/-- Items are written as those of any kind of expressions are. -/
theorem itemsJson_eq (items : List (SelectItem Exp)) :
    itemsJson items = items.map (SelectItem.toJson Exp.toJson) := by
  induction items with
  | nil => rw [itemsJson, List.map_nil]
  | cons item items ih =>
    obtain ⟨exp, aliasName, nestedAlias⟩ := item
    rw [itemsJson, ih, List.map_cons, SelectItem.toJson]

/-- Limits are written as those of any kind of expressions are. -/
theorem limitJson_eq (limit : Option (Limit Exp)) :
    limitJson limit = .ofOption (Limit.toJson Exp.toJson) limit := by
  cases limit with
  | none => rw [limitJson, Json.ofOption]
  | some limit =>
    obtain ⟨count, offset⟩ := limit
    rw [limitJson, optionJson_eq, Json.ofOption, Limit.toJson]

/-- In the recursion over sources, lists of them are written item by item. -/
theorem sourcesJson_eq (sources : List Source) :
    sourcesJson sources = sources.map Source.toJson := by
  induction sources with
  | nil => rw [sourcesJson, List.map_nil]
  | cons source sources ih => rw [sourcesJson, ih, List.map_cons]

/-- Single selects are written as those of any kind of expressions and sources are. -/
theorem coreJson_eq (core : SelectCore Exp Source) :
    coreJson core = core.toJson Exp.toJson Source.toJson := by
  obtain ⟨quantifier, items, sources, condition, groupBy, having, windows, orderBy, limit⟩ := core
  rw [coreJson, itemsJson_eq, sourcesJson_eq, optionJson_eq, listJson_eq, optionJson_eq,
    windowsJson_eq, sortJson_eq, limitJson_eq, SelectCore.toJson]

/-- Further selects are written as those of any kind of expressions and sources are. -/
theorem armsJson_eq (arms : List (CompoundArm Exp Source)) :
    armsJson arms = arms.map (CompoundArm.toJson Exp.toJson Source.toJson) := by
  induction arms with
  | nil => rw [armsJson, List.map_nil]
  | cons arm arms ih =>
    obtain ⟨op, core⟩ := arm
    rw [armsJson, coreJson_eq, ih, List.map_cons, CompoundArm.toJson]

/-- Selects are written as those of any kind of expressions and sources are. -/
theorem selectJson_eq (select : Select Exp Source) :
    selectJson select = select.toJson Exp.toJson Source.toJson := by
  obtain ⟨first, rest⟩ := select
  rw [selectJson, coreJson_eq, armsJson_eq, Select.toJson]

/-- Kinds of joins are written as those of any kind of expressions are. -/
theorem joinJson_eq (kind : JoinKind Exp) : joinJson kind = kind.toJson Exp.toJson := by
  cases kind <;> rw [joinJson, JoinKind.toJson]

/-- So `null` can stand for an expression that is missing. -/
theorem Exp.toJson_ne_null (e : Exp) : e.toJson ≠ .null := by
  cases e <;> simp [Exp.toJson, Json.variant]

/-! ## Reading back -/

/-- The reader reads back expressions and sources no deeper than `n`. -/
structure SyntaxReader.Reads (reader : SyntaxReader) (n : Nat) : Prop where
  exp : ReadsBack n reader.exp Exp.toJson
  source : ReadsBack n reader.source Source.toJson

namespace SyntaxReader.Reads

variable {reader : SyntaxReader} {n : Nat}

/-- A reader of expressions reads lists of them. -/
theorem list (h : reader.Reads n) (exps : List Exp)
    (hdepth : (Json.array (listJson exps)).depth ≤ n) :
    Json.list? reader.exp (.array (listJson exps)) = some exps := by
  rw [listJson_eq] at hdepth ⊢
  exact h.exp.list exps hdepth

/-- A reader of expressions reads one that may be missing. -/
theorem option (h : reader.Reads n) (exp : Option Exp) (hdepth : (optionJson exp).depth ≤ n) :
    Json.option? reader.exp (optionJson exp) = some exp := by
  rw [optionJson_eq] at hdepth ⊢
  exact h.exp.option Exp.toJson_ne_null exp hdepth

/-- A reader of expressions reads calls. -/
theorem call (h : reader.Reads n) (c : FunctionCall Exp) (hdepth : (callJson c).depth ≤ n) :
    reader.call (callJson c) = some c := by
  rw [callJson_eq] at hdepth ⊢
  exact FunctionCall.readsBack h.exp c hdepth

/-- A reader of expressions reads branches. -/
theorem branches (h : reader.Reads n) (branches : List (CaseBranch Exp))
    (hdepth : (Json.array (branchesJson branches)).depth ≤ n) :
    Json.list? (CaseBranch.ofJson? reader.exp) (.array (branchesJson branches))
      = some branches := by
  rw [branchesJson_eq] at hdepth ⊢
  exact (CaseBranch.readsBack h.exp).list branches hdepth

/-- A reader of expressions reads the windows of calls. -/
theorem overWindow (h : reader.Reads n) (overWindow : WindowOver Exp)
    (hdepth : (overJson overWindow).depth ≤ n) :
    WindowOver.ofJson? reader.dialect reader.exp (overJson overWindow) = some overWindow := by
  rw [overJson_eq] at hdepth ⊢
  exact WindowOver.readsBack h.exp overWindow hdepth

/-- A reader of expressions and sources reads selects. -/
theorem select (h : reader.Reads n) (select : Select Exp Source)
    (hdepth : (selectJson select).depth ≤ n) :
    reader.select (selectJson select) = some select := by
  rw [selectJson_eq] at hdepth ⊢
  exact Select.readsBack h.exp Exp.toJson_ne_null h.source select hdepth

/-- A reader of expressions reads kinds of joins. -/
theorem joinKind (h : reader.Reads n) (kind : JoinKind Exp) (hdepth : (joinJson kind).depth ≤ n) :
    JoinKind.ofJson? reader.dialect reader.exp (joinJson kind) = some kind := by
  rw [joinJson_eq] at hdepth ⊢
  exact JoinKind.readsBack h.exp kind hdepth

@[simp]
theorem type_toJson (reader : SyntaxReader) (type : ValueType) :
    reader.type type.toJson = some type :=
  ValueType.ofJson?_toJson type

/-- What is one level deeper is read back if its parts are. -/
theorem variant_exp (h : reader.Reads n) :
    ReadsBack (n + 1) (Json.variant? reader.expCases) Exp.toJson := by
  intro e hdepth
  rw [expCases]
  cases e with
  | literal | parameter | property | enumerator | extractProperty | extractInstance | typeList =>
    rw [Exp.toJson]
    simp
  | cast operand target =>
    simp only [Exp.toJson, depth_case_le, memberDepth_cons_lt] at hdepth
    rw [Exp.toJson]
    simp [h.exp operand (by omega)]
  | arithmetic lhs op rhs type parenthesized =>
    simp only [Exp.toJson, depth_case_le, memberDepth_cons_lt] at hdepth
    rw [Exp.toJson]
    simp [h.exp lhs (by omega), h.exp rhs (by omega)]
  | sign op operand type =>
    simp only [Exp.toJson, depth_case_le, memberDepth_cons_lt] at hdepth
    rw [Exp.toJson]
    simp [h.exp operand (by omega)]
  | call c =>
    rw [Exp.toJson, depth_variant] at hdepth
    rw [Exp.toJson]
    simp [h.call c (by omega)]
  | case branches otherwise type =>
    simp only [Exp.toJson, depth_case_le, memberDepth_cons_lt] at hdepth
    rw [Exp.toJson]
    simp [h.branches branches (by omega), h.option otherwise (by omega)]
  | iif condition consequent alternative type =>
    simp only [Exp.toJson, depth_case_le, memberDepth_cons_lt] at hdepth
    rw [Exp.toJson]
    simp [h.exp condition (by omega), h.exp consequent (by omega), h.exp alternative (by omega)]
  | navigation value =>
    obtain ⟨property, id, relationship, aliasName⟩ := value
    simp only [Exp.toJson, depth_case_le, memberDepth_cons_lt] at hdepth
    rw [Exp.toJson]
    simp [NavigationValue.ofJson?, h.exp id (by omega), h.option relationship (by omega)]
  | subquery select =>
    rw [Exp.toJson, depth_variant] at hdepth
    rw [Exp.toJson]
    simp [h.select select (by omega)]
  | list values =>
    rw [Exp.toJson, depth_variant] at hdepth
    rw [Exp.toJson]
    simp [h.list values (by omega)]
  | window c filter overWindow =>
    simp only [Exp.toJson, depth_case_le, memberDepth_cons_lt] at hdepth
    rw [Exp.toJson]
    simp [h.call c (by omega), h.option filter (by omega), h.overWindow overWindow (by omega)]
  | boolean lhs op rhs parenthesized =>
    simp only [Exp.toJson, depth_case_le, memberDepth_cons_lt] at hdepth
    rw [Exp.toJson]
    simp [h.exp lhs (by omega), h.exp rhs (by omega)]
  | not operand parenthesized =>
    simp only [Exp.toJson, depth_case_le, memberDepth_cons_lt] at hdepth
    rw [Exp.toJson]
    simp [h.exp operand (by omega)]
  | between operand lower upper negated =>
    simp only [Exp.toJson, depth_case_le, memberDepth_cons_lt] at hdepth
    rw [Exp.toJson]
    simp [h.exp operand (by omega), h.exp lower (by omega), h.exp upper (by omega)]
  | like operand pattern escape negated =>
    simp only [Exp.toJson, depth_case_le, memberDepth_cons_lt] at hdepth
    rw [Exp.toJson]
    simp [h.exp operand (by omega), h.exp pattern (by omega), h.option escape (by omega)]
  | quantified operand op quantifier select =>
    simp only [Exp.toJson, depth_case_le, memberDepth_cons_lt] at hdepth
    rw [Exp.toJson]
    simp [h.exp operand (by omega), h.select select (by omega)]
  | subqueryTest test select =>
    simp only [Exp.toJson, depth_case_le, memberDepth_cons_lt] at hdepth
    rw [Exp.toJson]
    simp [h.select select (by omega)]

/-- Sources are read back one level above their parts. -/
theorem variant_source (h : reader.Reads n) :
    ReadsBack (n + 1) (Json.variant? reader.sourceCases) Source.toJson := by
  intro source hdepth
  rw [sourceCases]
  cases source with
  | ofClass | commonTable =>
    rw [Source.toJson]
    simp
  | join lhs rhs kind =>
    simp only [Source.toJson, depth_case_le, memberDepth_cons_lt] at hdepth
    rw [Source.toJson]
    simp [h.source lhs (by omega), h.source rhs (by omega), h.joinKind kind (by omega)]
  | subquery select aliasName =>
    simp only [Source.toJson, depth_case_le, memberDepth_cons_lt] at hdepth
    rw [Source.toJson]
    simp [h.select select (by omega)]
  | function c aliasName =>
    simp only [Source.toJson, depth_case_le, memberDepth_cons_lt] at hdepth
    rw [Source.toJson]
    simp [h.call c (by omega)]

end SyntaxReader.Reads

theorem Exp.depth_toJson_pos (e : Exp) : 0 < e.toJson.depth := by
  cases e <;> simp [Exp.toJson, depth_variant]

theorem Source.depth_toJson_pos (source : Source) : 0 < source.toJson.depth := by
  cases source <;> simp [Source.toJson, depth_variant]

/-- A reader with enough depth reads back all that is less deep, by induction on the depth. -/
theorem SyntaxReader.reads_within (dialect : Dialect) (n : Nat) : (within dialect n).Reads n := by
  induction n with
  | zero =>
    refine ⟨fun e hdepth => ?_, fun source hdepth => ?_⟩
    · exact absurd e.depth_toJson_pos (Nat.not_lt.2 hdepth)
    · exact absurd source.depth_toJson_pos (Nat.not_lt.2 hdepth)
  | succ n ih => exact ⟨ih.variant_exp, ih.variant_source⟩

/-! ## Statements -/

section

variable {reader : SyntaxReader} {n : Nat}

/-- Common tables are read back with the names of their columns. -/
theorem CommonTable.readsBack (h : reader.Reads n) : ReadsBack n (ofJson? reader) toJson := by
  intro table hdepth
  simp only [toJson, depth_object_le, memberDepth_cons_lt] at hdepth
  simp [ofJson?, toJson, h.select table.select (by omega)]

/-- Selects with common tables are read back. -/
theorem WithSelect.readsBack (h : reader.Reads n) : ReadsBack n (ofJson? reader) toJson := by
  intro statement hdepth
  simp only [toJson, depth_object_le, memberDepth_cons_lt] at hdepth
  simp [ofJson?, toJson, (CommonTable.readsBack h).list statement.tables (by omega),
    h.select statement.select (by omega)]

/-- Insertions are read back with their properties and values. -/
theorem Insert.readsBack (h : reader.Reads n) : ReadsBack n (ofJson? reader) toJson := by
  intro statement hdepth
  simp only [toJson, depth_object_le, memberDepth_cons_lt] at hdepth
  simp [ofJson?, toJson, h.list statement.values (by omega)]

/-- Assignments are read back. -/
theorem Assignment.readsBack (h : reader.Reads n) : ReadsBack n (ofJson? reader) toJson := by
  intro assignment hdepth
  simp only [toJson, depth_object_le, memberDepth_cons_lt] at hdepth
  simp [ofJson?, toJson, h.exp assignment.value (by omega)]

/-- Updates are read back, with a condition or without one. -/
theorem Update.readsBack (h : reader.Reads n) : ReadsBack n (ofJson? reader) toJson := by
  intro statement hdepth
  simp only [toJson, depth_object_le, memberDepth_cons_lt] at hdepth
  simp [ofJson?, toJson, (Assignment.readsBack h).list statement.assignments (by omega),
    h.option statement.condition (by omega)]

/-- Deletions are read back, with a condition or without one. -/
theorem Delete.readsBack (h : reader.Reads n) : ReadsBack n (ofJson? reader) toJson := by
  intro statement hdepth
  simp only [toJson, depth_object_le, memberDepth_cons_lt] at hdepth
  simp [ofJson?, toJson, h.option statement.condition (by omega)]

/-- Statements are read back, however deep they are. -/
theorem Statement.ofJson?_toJson (dialect : Dialect) (statement : Statement) :
    ofJson? dialect statement.toJson = some statement := by
  have h := SyntaxReader.reads_within dialect statement.toJson.depth
  rw [ofJson?, SyntaxReader.of]
  generalize hn : statement.toJson.depth = n at h ⊢
  cases statement with
  | select s =>
    rw [toJson, depth_variant] at hn
    rw [toJson]
    simp [h.select s (by omega)]
  | withSelect s =>
    rw [toJson, depth_variant] at hn
    rw [toJson]
    simp [WithSelect.readsBack h s (by omega)]
  | insert s =>
    rw [toJson, depth_variant] at hn
    rw [toJson]
    simp [Insert.readsBack h s (by omega)]
  | update s =>
    rw [toJson, depth_variant] at hn
    rw [toJson]
    simp [Update.readsBack h s (by omega)]
  | delete s =>
    rw [toJson, depth_variant] at hn
    rw [toJson]
    simp [Delete.readsBack h s (by omega)]

end

/-! ## Exact forms -/

/-- The doubles among the constants of a node, not counting those of its parts. -/
def Node.ownDoubles : Node → List Decimal.Double
  | .exp (.literal l) => l.value.doubles
  | .exp (.enumerator _ _ value) => value.doubles
  | .exp _ | .source _ | .core _ | .select _ => []

/-- The JSON form of a node. -/
def Node.toJson : Node → Json
  | .exp e => e.toJson
  | .source s => s.toJson
  | .core c => coreJson c
  | .select w => selectJson w

/-- All doubles of a node and of the nodes below it are finite. -/
def Node.FiniteDoubles (n : Node) : Prop :=
  ∀ m : Node, m.Within n → ∀ x ∈ m.ownDoubles, x.isFinite = true

/-- All doubles of a statement are finite. -/
def Statement.FiniteDoubles (statement : Statement) : Prop :=
  ∀ n ∈ statement.nodes, n.FiniteDoubles

/-- An expression is exact if its own numbers are finite and its parts are exact. -/
theorem Exp.exact_toJson {e : Exp} (hown : ∀ x ∈ (Node.exp e).ownDoubles, x.isFinite = true)
    (hparts : ∀ m ∈ e.parts, m.toJson.Exact) : e.toJson.Exact := by
  cases e with
  | literal l => simp [Exp.toJson, Literal.toJson, LiteralValue.exact_toJson hown]
  | enumerator enumeration name value =>
    simp [Exp.toJson, LiteralValue.exact_toJson hown]
  | parameter p => simp [Exp.toJson, Parameter.toJson]
  | property | extractProperty | extractInstance => simp [Exp.toJson]
  | typeList entries => simp [Exp.toJson, TypeEntry.listToJson, TypeEntry.toJson]
  | cast | arithmetic | sign | iif | not | between =>
    simpa [Exp.toJson, Exp.parts, Node.toJson] using hparts
  | boolean lhs op rhs parenthesized =>
    have hop : op.toJson.Exact := by cases op <;> simp [BooleanOperator.toJson]
    simpa [Exp.toJson, Exp.parts, Node.toJson, hop] using hparts
  | call c =>
    rw [Exp.toJson, callJson_eq, Json.exact_variant, FunctionCall.exact_toJson]
    simpa [Exp.parts, Node.toJson] using hparts
  | case branches otherwise type =>
    rw [Exp.parts, List.forall_mem_map, List.forall_mem_append, List.forall_mem_flatMap] at hparts
    simpa [Exp.toJson, branchesJson_eq, optionJson_eq, CaseBranch.exact_toJson, Node.toJson]
      using hparts
  | navigation value =>
    obtain ⟨property, id, relationship, aliasName⟩ := value
    simpa [Exp.toJson, optionJson_eq, Exp.parts, Node.toJson] using hparts
  | subquery | subqueryTest | quantified =>
    simpa [Exp.toJson, Exp.parts, Node.toJson] using hparts
  | list values => simpa [Exp.toJson, listJson_eq, Exp.parts, Node.toJson] using hparts
  | window c filter overWindow =>
    rw [Exp.parts, List.forall_mem_map, List.forall_mem_append, List.forall_mem_append] at hparts
    simpa [Exp.toJson, callJson_eq, optionJson_eq, overJson_eq, FunctionCall.exact_toJson,
      WindowOver.exact_toJson, Node.toJson, and_assoc] using hparts
  | like operand pattern escape negated =>
    simpa [Exp.toJson, optionJson_eq, Exp.parts, Node.toJson] using hparts

/-- A source is exact if its parts are: it has no numbers of its own. -/
theorem Source.exact_toJson {source : Source} (hparts : ∀ m ∈ source.parts, m.toJson.Exact) :
    source.toJson.Exact := by
  cases source with
  | ofClass | commonTable => simp [Source.toJson]
  | join lhs rhs kind =>
    simpa [Source.toJson, joinJson_eq, JoinKind.exact_toJson, Source.parts, Node.toJson]
      using hparts
  | subquery select aliasName => simpa [Source.toJson, Source.parts, Node.toJson] using hparts
  | function c aliasName =>
    simpa [Source.toJson, callJson_eq, FunctionCall.exact_toJson, Source.parts, Node.toJson]
      using hparts

/-- A node is exact if all numbers in it and below it are finite. -/
theorem Node.exact_toJson (n : Node) (h : n.FiniteDoubles) : n.toJson.Exact := by
  induction n using Node.induction with
  | h n ih =>
    obtain ⟨hown, hbelow⟩ := forall_within_iff.1 h
    have hparts : ∀ m ∈ n.parts, m.toJson.Exact := fun m hm => ih m hm (hbelow m hm)
    cases n with
    | exp e => exact Exp.exact_toJson hown hparts
    | source s => exact Source.exact_toJson hparts
    | core c =>
      rw [parts, List.forall_mem_append, List.forall_mem_map, List.forall_mem_map] at hparts
      rw [toJson, coreJson_eq]
      exact SelectCore.exact_toJson.2 hparts
    | select w =>
      rw [parts, List.forall_mem_map] at hparts
      rw [toJson, selectJson_eq]
      exact Select.exact_toJson.2 fun core hcore => coreJson_eq core ▸ hparts core hcore

/-- A statement is exact if all numbers in it are finite. -/
theorem Statement.exact_toJson {statement : Statement} (h : statement.FiniteDoubles) :
    statement.toJson.Exact := by
  have hnodes : ∀ n ∈ statement.nodes, n.toJson.Exact := fun n hn => n.exact_toJson (h n hn)
  cases statement with
  | select s => simpa [toJson, nodes, Node.toJson] using hnodes
  | withSelect s =>
    rw [nodes, List.forall_mem_append, List.forall_mem_map] at hnodes
    simpa [toJson, WithSelect.toJson, CommonTable.toJson, Node.toJson] using hnodes
  | insert s => simpa [toJson, Insert.toJson, listJson_eq, nodes, Node.toJson] using hnodes
  | update s =>
    rw [nodes, List.forall_mem_append, List.forall_mem_map, List.forall_mem_map] at hnodes
    simpa [toJson, Update.toJson, Assignment.toJson, optionJson_eq, Node.toJson] using hnodes
  | delete s => simpa [toJson, Delete.toJson, optionJson_eq, nodes, Node.toJson] using hnodes

end EntitySql
