import EntitySql.Codec.Clause
import EntitySql.Proofs.Codec.Schema
import EntitySql.Proofs.Syntax.Node

/-!
# Clauses are read back

Each clause has a JSON form that depends on those of its expressions. If expressions are read back,
so is the clause, and if the forms of its expressions are exact, so is that of the clause.
-/

namespace EntitySql

open Json (Dialect ReadsBack depth_object_le depth_variant memberDepth_cons_lt)
open scoped Json

variable {dialect : Dialect} {n : Nat} {α β : Type}

/-! ## Names and constants -/

/-- Values of literals are read back, each under its own tag. -/
@[simp]
theorem LiteralValue.ofJson?_toJson (value : LiteralValue) :
    ofJson? dialect value.toJson = some value := by
  cases value <;> simp [ofJson?, toJson]

/-- Literals are read back with their type and their parentheses. -/
@[simp]
theorem Literal.ofJson?_toJson (l : Literal) : ofJson? dialect l.toJson = some l := by
  simp [ofJson?, toJson]

/-- Parameters are read back, with a name or without one. -/
@[simp]
theorem Parameter.ofJson?_toJson (p : Parameter) : ofJson? dialect p.toJson = some p := by
  simp [ofJson?, toJson]

/-- What a property belongs to is read back. -/
@[simp]
theorem PropertyTarget.ofJson?_toJson (target : PropertyTarget) :
    ofJson? dialect target.toJson = some target := by
  cases target <;> rw [toJson] <;> simp [ofJson?]

/-- Names of properties are read back with the whole path. -/
@[simp]
theorem PropertyName.ofJson?_toJson (p : PropertyName) : ofJson? dialect p.toJson = some p := by
  simp [ofJson?, toJson]

/-- Entries of lists of types are read back. -/
@[simp]
theorem TypeEntry.ofJson?_toJson (entry : TypeEntry) : ofJson? entry.toJson = some entry := by
  simp [ofJson?, toJson]

/-- Lists of types are read back. -/
@[simp]
theorem TypeEntry.listOfJson?_listToJson (entries : List TypeEntry) :
    listOfJson? (listToJson entries) = some entries := by
  simp [listOfJson?, listToJson]

/-- Class names are read back, with an alias or without one. -/
@[simp]
theorem ClassName.ofJson?_toJson (c : ClassName) : ofJson? c.toJson = some c := by
  simp [ofJson?, toJson]

/-- Operators are read back. Comparisons are nested under a tag of their own. -/
@[simp]
theorem BooleanOperator.ofJson?_toJson (op : BooleanOperator) :
    ofJson? dialect op.toJson = some op := by
  cases op <;> simp [ofJson?, toJson]

/-- The doubles of a constant. -/
def LiteralValue.doubles : LiteralValue → List Decimal.Double
  | .double value => [value]
  | .null | .boolean _ | .integer _ | .string _ | .date _ | .timestamp _ => []

/-- Only a floating-point value can be rounded. -/
theorem LiteralValue.exact_toJson {value : LiteralValue}
    (h : ∀ x ∈ value.doubles, x.isFinite = true) : value.toJson.Exact := by
  cases value with
  | double x => simpa [toJson] using h x (List.mem_singleton_self x)
  | null | boolean | integer | string | date | timestamp => simp [toJson]

/-- Names of properties hold no floating-point numbers. -/
@[simp]
theorem PropertyName.exact_toJson (p : PropertyName) : p.toJson.Exact := by
  have htarget : p.target.toJson.Exact := by
    cases p.target <;> simp [PropertyTarget.toJson]
  simp [toJson, htarget]

/-- Class names hold no floating-point numbers. -/
@[simp]
theorem ClassName.exact_toJson (c : ClassName) : c.toJson.Exact := by
  simp [toJson]

/-! ## The JSON form of a clause -/

section Writing

variable (exp : α → Json) (source : β → Json)

/-- The JSON form of a call. -/
def FunctionCall.toJson (c : FunctionCall α) : Json :=
  .object [("name", .string c.name), ("args", .array (c.args.map exp)),
    ("set_quantifier", .tag c.quantifier), ("star_arg", .bool c.star),
    ("type_info", c.type.toJson)]

/-- The JSON form of a branch. -/
def CaseBranch.toJson (branch : CaseBranch α) : Json :=
  .object [("when", exp branch.condition), ("then", exp branch.value)]

/-- The JSON form of a key of a partition. -/
def PartitionKey.toJson (key : PartitionKey α) : Json :=
  .object [("exp", exp key.exp), ("collation", .ofOption .tag key.collation)]

/-- The JSON form of a key of a sort. -/
def SortKey.toJson (key : SortKey α) : Json :=
  .object [("exp", exp key.exp), ("direction", .ofOption .tag key.direction),
    ("nulls", .ofOption .tag key.nulls)]

/-- The JSON form of the start of a frame. -/
def FrameStart.toJson : FrameStart α → Json
  | .currentRow => .string "CurrentRow"
  | .unboundedPreceding => .string "UnboundedPreceding"
  | .preceding offset => .variant "Preceding" (exp offset)

/-- The JSON form of a bound of a frame. -/
def FrameBound.toJson : FrameBound α → Json
  | .currentRow => .string "CurrentRow"
  | .unboundedPreceding => .string "UnboundedPreceding"
  | .preceding offset => .variant "Preceding" (exp offset)
  | .following offset => .variant "Following" (exp offset)
  | .unboundedFollowing => .string "UnboundedFollowing"

/-- The JSON form of the rows of a frame. -/
def FrameExtent.toJson : FrameExtent α → Json
  | .start bound => .variant "Start" (bound.toJson exp)
  | .between first second =>
    .variant "Between" (.object [("first", first.toJson exp), ("second", second.toJson exp)])

/-- The JSON form of a frame. -/
def WindowFrame.toJson (frame : WindowFrame α) : Json :=
  .object [("unit", .tag frame.unit), ("extent", frame.extent.toJson exp),
    ("exclusion", .ofOption .tag frame.exclusion)]

/-- The JSON form of a window. -/
def WindowSpec.toJson (window : WindowSpec α) : Json :=
  .object [("base_window", .ofOption .string window.base),
    ("partition_by", .array (window.partitionBy.map (PartitionKey.toJson exp))),
    ("order_by", .array (window.orderBy.map (SortKey.toJson exp))),
    ("frame", .ofOption (WindowFrame.toJson exp) window.frame)]

/-- The JSON form of the window of a window function. -/
def WindowOver.toJson : WindowOver α → Json
  | .spec window => .variant "Spec" (window.toJson exp)
  | .name text => .variant "Name" (.string text)

/-- The JSON form of a window with a name. -/
def WindowDefinition.toJson (definition : WindowDefinition α) : Json :=
  .object [("name", .string definition.name), ("spec", definition.window.toJson exp)]

/-- The JSON form of an item of a select. -/
def SelectItem.toJson (item : SelectItem α) : Json :=
  .object [("exp", exp item.exp), ("alias", .ofOption .string item.aliasName),
    ("nested_alias", .ofOption .string item.nestedAlias)]

/-- The JSON form of a limit. -/
def Limit.toJson (limit : Limit α) : Json :=
  .object [("limit", exp limit.count), ("offset", .ofOption exp limit.offset)]

/-- The JSON form of a select that is not combined with others. -/
def SelectCore.toJson (core : SelectCore α β) : Json :=
  .object [("quantifier", .tag core.quantifier),
    ("select_list", .array (core.items.map (SelectItem.toJson exp))),
    ("from", .array (core.sources.map source)), ("where_clause", .ofOption exp core.condition),
    ("group_by", .array (core.groupBy.map exp)), ("having", .ofOption exp core.having),
    ("window_clause", .array (core.windows.map (WindowDefinition.toJson exp))),
    ("order_by", .array (core.orderBy.map (SortKey.toJson exp))),
    ("limit", .ofOption (Limit.toJson exp) core.limit)]

/-- The JSON form of a further select. -/
def CompoundArm.toJson (arm : CompoundArm α β) : Json :=
  .object [("op", .tag arm.op), ("select", arm.core.toJson exp source)]

/-- The JSON form of a select. -/
def Select.toJson (select : Select α β) : Json :=
  .object [("first", select.first.toJson exp source),
    ("rest", .array (select.rest.map (CompoundArm.toJson exp source)))]

/-- The JSON form of the kind of a join. -/
def JoinKind.toJson : JoinKind α → Json
  | .cross => .string "Cross"
  | .natural type => .variant "Natural" (.tag type)
  | .on type condition =>
    .variant "Qualified" (.object [("join_type", .tag type),
      ("spec", .variant "On" (exp condition))])
  | .using type columns =>
    .variant "Qualified" (.object [("join_type", .tag type),
      ("spec", .variant "Using" (.strings columns))])
  | .relationship link direction =>
    .variant "Relationship" (.object [("relationship", link.toJson), ("direction", .tag direction)])

end Writing

/-! ## Reading clauses back -/

section Reading

variable {read : Json → Option α} {exp : α → Json} {readSource : Json → Option β}
  {source : β → Json}

/-- A value of an enumeration that may be missing is read back. -/
@[simp]
theorem option?_ofOption_tag [Tagged α] (o : Option α) :
    Json.option? dialect.tag? (.ofOption .tag o) = some o :=
  Json.option?_ofOption (Json.tag?_tag dialect) fun _ => Json.noConfusion

/-- Calls are read back if their arguments are. -/
theorem FunctionCall.readsBack (h : ReadsBack n read exp) :
    ReadsBack n (ofJson? dialect read) (toJson exp) := by
  intro c hdepth
  simp only [toJson, depth_object_le, memberDepth_cons_lt] at hdepth
  simp [ofJson?, toJson, h.list c.args (by omega)]

/-- Branches are read back if their condition and their value are. -/
theorem CaseBranch.readsBack (h : ReadsBack n read exp) :
    ReadsBack n (ofJson? read) (toJson exp) := by
  intro branch hdepth
  simp only [toJson, depth_object_le, memberDepth_cons_lt] at hdepth
  simp [ofJson?, toJson, h branch.condition (by omega), h branch.value (by omega)]

/-! ### Windows -/

/-- Keys of partitions are read back with their collation. -/
theorem PartitionKey.readsBack (h : ReadsBack n read exp) :
    ReadsBack n (ofJson? dialect read) (toJson exp) := by
  intro key hdepth
  simp only [toJson, depth_object_le, memberDepth_cons_lt] at hdepth
  simp [ofJson?, toJson, h key.exp (by omega)]

/-- Keys of orders are read back with their direction and the place of `NULL`. -/
theorem SortKey.readsBack (h : ReadsBack n read exp) :
    ReadsBack n (ofJson? dialect read) (toJson exp) := by
  intro key hdepth
  simp only [toJson, depth_object_le, memberDepth_cons_lt] at hdepth
  simp [ofJson?, toJson, h key.exp (by omega)]

/-- The start of a frame is read back, with the offset if it has one. -/
theorem FrameStart.readsBack (h : ReadsBack n read exp) :
    ReadsBack n (ofJson? dialect read) (toJson exp) := by
  intro bound hdepth
  cases bound with
  | currentRow | unboundedPreceding => simp [ofJson?, toJson]
  | preceding offset =>
    rw [toJson, depth_variant] at hdepth
    simp [ofJson?, toJson, h offset (by omega)]

/-- The bounds of a frame are read back, with the offset if they have one. -/
theorem FrameBound.readsBack (h : ReadsBack n read exp) :
    ReadsBack n (ofJson? dialect read) (toJson exp) := by
  intro bound hdepth
  cases bound with
  | currentRow | unboundedPreceding | unboundedFollowing => simp [ofJson?, toJson]
  | preceding offset | following offset =>
    rw [toJson, depth_variant] at hdepth
    simp [ofJson?, toJson, h offset (by omega)]

/-- The extent of a frame is read back, as a start or as two bounds. -/
theorem FrameExtent.readsBack (h : ReadsBack n read exp) :
    ReadsBack n (ofJson? dialect read) (toJson exp) := by
  intro extent hdepth
  cases extent with
  | start bound =>
    rw [toJson, depth_variant] at hdepth
    simp [ofJson?, toJson, FrameStart.readsBack h bound (by omega)]
  | between first second =>
    rw [toJson, depth_variant, Nat.add_one_le_iff] at hdepth
    have hfields := Nat.le_of_lt hdepth
    simp only [depth_object_le, memberDepth_cons_lt] at hfields
    simp [ofJson?, toJson, FrameBound.readsBack h first (by omega),
      FrameBound.readsBack h second (by omega)]

/-- Frames are read back with their unit and what they exclude. -/
theorem WindowFrame.readsBack (h : ReadsBack n read exp) :
    ReadsBack n (ofJson? dialect read) (toJson exp) := by
  intro frame hdepth
  simp only [toJson, depth_object_le, memberDepth_cons_lt] at hdepth
  simp [ofJson?, toJson, FrameExtent.readsBack h frame.extent (by omega)]

/-- Windows are read back if all expressions in them are. -/
theorem WindowSpec.readsBack (h : ReadsBack n read exp) :
    ReadsBack n (ofJson? dialect read) (toJson exp) := by
  intro window hdepth
  simp only [toJson, depth_object_le, memberDepth_cons_lt] at hdepth
  simp [ofJson?, toJson, (PartitionKey.readsBack h).list window.partitionBy (by omega),
    (SortKey.readsBack h).list window.orderBy (by omega),
    (WindowFrame.readsBack h).option (fun _ => Json.noConfusion) window.frame (by omega)]

/-- The window of a call is read back, as a name or as a whole window. -/
theorem WindowOver.readsBack (h : ReadsBack n read exp) :
    ReadsBack n (ofJson? dialect read) (toJson exp) := by
  intro overWindow hdepth
  cases overWindow with
  | name text => simp [ofJson?, toJson]
  | spec window =>
    rw [toJson, depth_variant] at hdepth
    simp [ofJson?, toJson, WindowSpec.readsBack h window (by omega)]

/-- Windows with a name are read back. -/
theorem WindowDefinition.readsBack (h : ReadsBack n read exp) :
    ReadsBack n (ofJson? dialect read) (toJson exp) := by
  intro definition hdepth
  simp only [toJson, depth_object_le, memberDepth_cons_lt] at hdepth
  simp [ofJson?, toJson, WindowSpec.readsBack h definition.window (by omega)]

/-! ### Selects -/

/-- Items are read back with both their aliases. -/
theorem SelectItem.readsBack (h : ReadsBack n read exp) :
    ReadsBack n (ofJson? read) (toJson exp) := by
  intro item hdepth
  simp only [toJson, depth_object_le, memberDepth_cons_lt] at hdepth
  simp [ofJson?, toJson, h item.exp (by omega)]

/-- Limits are read back, with an offset or without one. -/
theorem Limit.readsBack (h : ReadsBack n read exp) (hnull : ∀ a, exp a ≠ .null) :
    ReadsBack n (ofJson? read) (toJson exp) := by
  intro limit hdepth
  simp only [toJson, depth_object_le, memberDepth_cons_lt] at hdepth
  simp [ofJson?, toJson, h limit.count (by omega), h.option hnull limit.offset (by omega)]

/-- Single selects are read back, clause by clause. -/
theorem SelectCore.readsBack (h : ReadsBack n read exp) (hnull : ∀ a, exp a ≠ .null)
    (hsource : ReadsBack n readSource source) :
    ReadsBack n (ofJson? dialect read readSource) (toJson exp source) := by
  intro core hdepth
  simp only [toJson, depth_object_le, memberDepth_cons_lt] at hdepth
  simp [ofJson?, toJson, (SelectItem.readsBack h).list core.items (by omega),
    hsource.list core.sources (by omega), h.option hnull core.condition (by omega),
    h.list core.groupBy (by omega), h.option hnull core.having (by omega),
    (WindowDefinition.readsBack h).list core.windows (by omega),
    (SortKey.readsBack h).list core.orderBy (by omega),
    (Limit.readsBack h hnull).option (fun _ => Json.noConfusion) core.limit (by omega)]

/-- The further selects of a compound are read back with their operator. -/
theorem CompoundArm.readsBack (h : ReadsBack n read exp) (hnull : ∀ a, exp a ≠ .null)
    (hsource : ReadsBack n readSource source) :
    ReadsBack n (ofJson? dialect read readSource) (toJson exp source) := by
  intro arm hdepth
  simp only [toJson, depth_object_le, memberDepth_cons_lt] at hdepth
  simp [ofJson?, toJson, SelectCore.readsBack h hnull hsource arm.core (by omega)]

/-- Selects are read back if all expressions and sources in them are. -/
theorem Select.readsBack (h : ReadsBack n read exp) (hnull : ∀ a, exp a ≠ .null)
    (hsource : ReadsBack n readSource source) :
    ReadsBack n (ofJson? dialect read readSource) (toJson exp source) := by
  intro select hdepth
  simp only [toJson, depth_object_le, memberDepth_cons_lt] at hdepth
  simp [ofJson?, toJson, SelectCore.readsBack h hnull hsource select.first (by omega),
    (CompoundArm.readsBack h hnull hsource).list select.rest (by omega)]

/-- Kinds of joins are read back, with the condition if they have one. -/
theorem JoinKind.readsBack (h : ReadsBack n read exp) :
    ReadsBack n (ofJson? dialect read) (toJson exp) := by
  intro kind hdepth
  cases kind with
  | cross | natural => simp [ofJson?, toJson]
  | on type condition =>
    rw [toJson, depth_variant, Nat.add_one_le_iff] at hdepth
    have hfields := Nat.le_of_lt hdepth
    simp only [depth_object_le, memberDepth_cons_lt, depth_variant] at hfields
    simp [ofJson?, ofSpec?, toJson, h condition (by omega)]
  | «using» type columns => simp [ofJson?, ofSpec?, toJson]
  | relationship link direction =>
    rw [toJson]
    simp [ofJson?]

end Reading

/-! ## Exact forms of clauses -/

section Exact

variable {exp : α → Json} {source : β → Json}

/-- In a call, only the arguments hold numbers. -/
theorem FunctionCall.exact_toJson {c : FunctionCall α} :
    (c.toJson exp).Exact ↔ ∀ e ∈ c.args, (exp e).Exact := by
  simp [toJson]

/-- A branch is exact if its condition and its value are. -/
theorem CaseBranch.exact_toJson {branch : CaseBranch α} :
    (branch.toJson exp).Exact ↔ ∀ e ∈ branch.exps, (exp e).Exact := by
  simp [toJson, exps]

/-- In the start of a frame, only the offset holds numbers. -/
theorem FrameStart.exact_toJson {bound : FrameStart α} :
    (bound.toJson exp).Exact ↔ ∀ e ∈ bound.exps, (exp e).Exact := by
  cases bound <;> simp [toJson, exps]

/-- In the bounds of a frame, only the offsets hold numbers. -/
theorem FrameBound.exact_toJson {bound : FrameBound α} :
    (bound.toJson exp).Exact ↔ ∀ e ∈ bound.exps, (exp e).Exact := by
  cases bound <;> simp [toJson, exps]

/-- An extent is exact if the bounds in it are. -/
theorem FrameExtent.exact_toJson {extent : FrameExtent α} :
    (extent.toJson exp).Exact ↔ ∀ e ∈ extent.exps, (exp e).Exact := by
  cases extent with
  | start bound => simp [toJson, exps, FrameStart.exact_toJson]
  | between first second =>
    simp [toJson, exps, FrameBound.exact_toJson, or_imp, forall_and]

/-- A key is exact if its expression is. -/
theorem SortKey.exact_toJson {key : SortKey α} :
    (key.toJson exp).Exact ↔ (exp key.exp).Exact := by
  simp [toJson]

/-- A window is exact if all expressions in its clauses are. -/
theorem WindowSpec.exact_toJson {window : WindowSpec α} :
    (window.toJson exp).Exact ↔ ∀ e ∈ window.exps, (exp e).Exact := by
  simp only [exps, List.forall_mem_append, List.forall_mem_map, List.forall_mem_flatMap,
    Option.mem_toList]
  simp [toJson, PartitionKey.toJson, SortKey.exact_toJson, WindowFrame.toJson,
    FrameExtent.exact_toJson, and_assoc]

/-- The name of a window is exact. -/
theorem WindowOver.exact_toJson {overWindow : WindowOver α} :
    (overWindow.toJson exp).Exact ↔ ∀ e ∈ overWindow.exps, (exp e).Exact := by
  cases overWindow with
  | spec window => simp [toJson, exps, WindowSpec.exact_toJson]
  | name text => simp [toJson, exps]

/-- A limit is exact if its count and its offset are. -/
theorem Limit.exact_toJson {limit : Limit α} :
    (limit.toJson exp).Exact ↔ ∀ e ∈ limit.exps, (exp e).Exact := by
  simp [toJson, exps]

/-- An item is exact if its expression is. -/
theorem SelectItem.exact_toJson {item : SelectItem α} :
    (item.toJson exp).Exact ↔ (exp item.exp).Exact := by
  simp [toJson]

/-- A window with a name is exact if the window is. -/
theorem WindowDefinition.exact_toJson {definition : WindowDefinition α} :
    (definition.toJson exp).Exact ↔ ∀ e ∈ definition.window.exps, (exp e).Exact := by
  simp [toJson, WindowSpec.exact_toJson]

/-- A single select is exact if its expressions and its sources are. -/
theorem SelectCore.exact_toJson {core : SelectCore α β} : (core.toJson exp source).Exact ↔
    (∀ e ∈ core.exps, (exp e).Exact) ∧ ∀ s ∈ core.sources, (source s).Exact := by
  simp only [toJson, exps, Json.exact_object, Json.exact_array, Json.exact_ofOption,
    Json.exact_tag, List.forall_mem_cons, List.forall_mem_append, List.forall_mem_map,
    List.forall_mem_flatMap, Option.mem_toList, Option.mem_def, SelectItem.exact_toJson,
    SortKey.exact_toJson, WindowDefinition.exact_toJson, Limit.exact_toJson]
  constructor
  · rintro ⟨-, hitems, hsources, hcondition, hgroups, hhaving, hwindows, horder, hlimit, -⟩
    exact ⟨⟨⟨⟨⟨⟨⟨hitems, hcondition⟩, hgroups⟩, hhaving⟩, hwindows⟩, horder⟩, hlimit⟩, hsources⟩
  · rintro ⟨⟨⟨⟨⟨⟨⟨hitems, hcondition⟩, hgroups⟩, hhaving⟩, hwindows⟩, horder⟩, hlimit⟩, hsources⟩
    exact ⟨trivial, hitems, hsources, hcondition, hgroups, hhaving, hwindows, horder, hlimit,
      by simp⟩

/-- A select is exact if the single selects that it is made of are. -/
theorem Select.exact_toJson {select : Select α β} : (select.toJson exp source).Exact ↔
    ∀ core ∈ select.cores, (core.toJson exp source).Exact := by
  simp [toJson, cores, CompoundArm.toJson]

/-- A kind of join is exact if its condition is. -/
theorem JoinKind.exact_toJson {kind : JoinKind α} :
    (kind.toJson exp).Exact ↔ ∀ e ∈ kind.exps, (exp e).Exact := by
  cases kind <;> simp [toJson, exps]

end Exact

end EntitySql
