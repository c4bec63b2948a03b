import EntitySql.Proofs.Syntax.Node

/-!
# Replacing the expressions of a clause

Each shape of clause can be mapped over its expressions, and a select also over its sources. Mapping
twice is mapping once (`map_map`), the expressions of the result are those of the clause, mapped
(`exps_map`), and a clause stays as it is if none of its expressions changes (`map_eq_self`).
-/

namespace EntitySql

variable {α β γ δ : Type}

/-! ## Calls and values -/

/-- The call with other arguments. -/
def FunctionCall.map (g : α → β) (c : FunctionCall α) : FunctionCall β :=
  ⟨c.name, c.args.map g, c.quantifier, c.star, c.type⟩

/-- The branch with other expressions. -/
def CaseBranch.map (g : α → β) (branch : CaseBranch α) : CaseBranch β :=
  ⟨g branch.condition, g branch.value⟩

/-- The navigation value with other expressions. -/
def NavigationValue.map (g : α → β) (value : NavigationValue α) : NavigationValue β :=
  ⟨value.property, g value.id, value.relationship.map g, value.aliasName⟩

variable {ε : Type}

/-- Replacing the arguments of a call twice is replacing them once. -/
theorem FunctionCall.map_map (g : α → β) (k : β → ε) (c : FunctionCall α) :
    (c.map g).map k = c.map (k ∘ g) := by
  rw [map, map, map, List.map_map]

/-- Replacing the expressions of a navigation value twice is replacing them once. -/
theorem NavigationValue.map_map (g : α → β) (k : β → ε) (value : NavigationValue α) :
    (value.map g).map k = value.map (k ∘ g) := by
  rw [map, map, map, Option.map_map]
  rfl

/-- Replacing the expressions of branches twice is replacing them once. -/
theorem CaseBranch.map_map (g : α → β) (k : β → ε) (branches : List (CaseBranch α)) :
    (branches.map (.map g)).map (.map k) = branches.map (CaseBranch.map (k ∘ g)) :=
  List.map_map

/-- A list stays the same if its members do. -/
theorem List.map_eq_self {l : List α} {g : α → α} (h : ∀ a ∈ l, g a = a) : l.map g = l :=
  (List.map_congr_left h).trans (List.map_id l)

/-- A value that may be missing stays the same if it does when it is there. -/
theorem Option.map_eq_self {o : Option α} {g : α → α} (h : ∀ a ∈ o.toList, g a = a) :
    o.map g = o := by
  cases o with
  | none => rfl
  | some a => exact congrArg some (h a (List.mem_singleton_self a))

/-- A call stays the same if its arguments do. -/
theorem FunctionCall.map_eq_self {c : FunctionCall α} {g : α → α} (h : ∀ a ∈ c.args, g a = a) :
    c.map g = c := by
  rw [map, List.map_eq_self h]

/-- A branch stays the same if its condition and its value do. -/
theorem CaseBranch.map_eq_self {branch : CaseBranch α} {g : α → α}
    (h : ∀ a ∈ branch.exps, g a = a) : branch.map g = branch := by
  rw [map, h _ (List.mem_cons_self ..), h _ (List.mem_cons_of_mem _ (List.mem_cons_self ..))]

/-! ## Windows -/

/-- The key of a sort with another expression. -/
def SortKey.map (g : α → β) (key : SortKey α) : SortKey β :=
  ⟨g key.exp, key.direction, key.nulls⟩

/-- The key of a partition with another expression. -/
def PartitionKey.map (g : α → β) (key : PartitionKey α) : PartitionKey β :=
  ⟨g key.exp, key.collation⟩

/-- The start of a frame with another offset. -/
def FrameStart.map (g : α → β) : FrameStart α → FrameStart β
  | .currentRow => .currentRow
  | .unboundedPreceding => .unboundedPreceding
  | .preceding offset => .preceding (g offset)

/-- The bound of a frame with another offset. -/
def FrameBound.map (g : α → β) : FrameBound α → FrameBound β
  | .currentRow => .currentRow
  | .unboundedPreceding => .unboundedPreceding
  | .preceding offset => .preceding (g offset)
  | .following offset => .following (g offset)
  | .unboundedFollowing => .unboundedFollowing

/-- The rows of a frame with other offsets. -/
def FrameExtent.map (g : α → β) : FrameExtent α → FrameExtent β
  | .start bound => .start (bound.map g)
  | .between first second => .between (first.map g) (second.map g)

/-- The frame with other offsets. -/
def WindowFrame.map (g : α → β) (frame : WindowFrame α) : WindowFrame β :=
  ⟨frame.unit, frame.extent.map g, frame.exclusion⟩

/-- The window with other expressions. -/
def WindowSpec.map (g : α → β) (window : WindowSpec α) : WindowSpec β :=
  ⟨window.base, window.partitionBy.map (.map g), window.orderBy.map (.map g),
    window.frame.map (.map g)⟩

/-- The window of a window function with other expressions. -/
def WindowOver.map (g : α → β) : WindowOver α → WindowOver β
  | .spec window => .spec (window.map g)
  | .name x => .name x

/-- The named window with other expressions. -/
def WindowDefinition.map (g : α → β) (definition : WindowDefinition α) : WindowDefinition β :=
  ⟨definition.name, definition.window.map g⟩

/-- Replacing the expressions of keys twice is replacing them once. -/
theorem SortKey.map_map (g : α → β) (k : β → ε) (keys : List (SortKey α)) :
    (keys.map (.map g)).map (.map k) = keys.map (SortKey.map (k ∘ g)) :=
  List.map_map

/-- Replacing the expressions of keys twice is replacing them once. -/
theorem PartitionKey.map_map (g : α → β) (k : β → ε) (keys : List (PartitionKey α)) :
    (keys.map (.map g)).map (.map k) = keys.map (PartitionKey.map (k ∘ g)) :=
  List.map_map

/-- Replacing the offset of a bound twice is replacing it once. -/
theorem FrameBound.map_map (g : α → β) (k : β → ε) (bound : FrameBound α) :
    (bound.map g).map k = bound.map (k ∘ g) := by
  cases bound <;> rfl

/-- Replacing the offsets of an extent twice is replacing them once. -/
theorem FrameExtent.map_map (g : α → β) (k : β → ε) (extent : FrameExtent α) :
    (extent.map g).map k = extent.map (k ∘ g) := by
  cases extent with
  | start bound => cases bound <;> rfl
  | between first second => rw [map, map, map, FrameBound.map_map, FrameBound.map_map]

/-- Replacing the expressions of a window twice is replacing them once. -/
theorem WindowSpec.map_map (g : α → β) (k : β → ε) (window : WindowSpec α) :
    (window.map g).map k = window.map (k ∘ g) := by
  have hframe : (window.frame.map (.map g)).map (.map k)
      = window.frame.map (WindowFrame.map (k ∘ g)) := by
    rw [Option.map_map]
    refine Option.map_congr fun frame _ => ?_
    rw [Function.comp_apply, WindowFrame.map, WindowFrame.map, WindowFrame.map,
      FrameExtent.map_map]
  rw [map, map, map, PartitionKey.map_map, SortKey.map_map, hframe]

/-- Replacing the expressions of a window twice is replacing them once, also if it is only named. -/
theorem WindowOver.map_map (g : α → β) (k : β → ε) (overWindow : WindowOver α) :
    (overWindow.map g).map k = overWindow.map (k ∘ g) := by
  cases overWindow with
  | spec window => exact congrArg _ (window.map_map g k)
  | name x => rfl

/-- The expressions of keys are replaced, and no others are added. -/
theorem SortKey.exps_map (g : α → β) (keys : List (SortKey α)) :
    (keys.map (SortKey.map g)).map (·.exp) = (keys.map (·.exp)).map g := by
  rw [List.map_map, List.map_map]
  rfl

/-- The expressions of keys are replaced, and no others are added. -/
theorem PartitionKey.exps_map (g : α → β) (keys : List (PartitionKey α)) :
    (keys.map (PartitionKey.map g)).map (·.exp) = (keys.map (·.exp)).map g := by
  rw [List.map_map, List.map_map]
  rfl

/-- Only the offset of a bound is replaced. -/
theorem FrameBound.exps_map (g : α → β) (bound : FrameBound α) :
    (bound.map g).exps = bound.exps.map g := by
  cases bound <;> rfl

/-- Only the offsets of an extent are replaced. -/
theorem FrameExtent.exps_map (g : α → β) (extent : FrameExtent α) :
    (extent.map g).exps = extent.exps.map g := by
  cases extent with
  | start bound => cases bound <;> rfl
  | between first second =>
    rw [map, exps, exps, List.map_append, FrameBound.exps_map, FrameBound.exps_map]

/-- The expressions of a window are replaced where they stand. -/
theorem WindowSpec.exps_map (g : α → β) (window : WindowSpec α) :
    (window.map g).exps = window.exps.map g := by
  have hframe : (window.frame.map (WindowFrame.map g)).toList.flatMap (·.extent.exps)
      = (window.frame.toList.flatMap (·.extent.exps)).map g := by
    cases window.frame with
    | none => rfl
    | some frame =>
      simp only [Option.map_some, Option.toList_some, List.flatMap_singleton, WindowFrame.map,
        FrameExtent.exps_map]
  rw [map, exps, exps, hframe, PartitionKey.exps_map, SortKey.exps_map, List.map_append,
    List.map_append]

/-- The expressions of the window of a call are replaced where they stand. -/
theorem WindowOver.exps_map (g : α → β) (overWindow : WindowOver α) :
    (overWindow.map g).exps = overWindow.exps.map g := by
  cases overWindow with
  | spec window => exact window.exps_map g
  | name x => rfl

/-- Keys stay the same if their expressions do. -/
theorem SortKey.map_eq_self {keys : List (SortKey α)} {g : α → α}
    (h : ∀ a ∈ keys.map (·.exp), g a = a) : keys.map (.map g) = keys := by
  refine List.map_eq_self fun key hkey => ?_
  rw [map, h _ (List.mem_map_of_mem hkey)]

/-- Keys stay the same if their expressions do. -/
theorem PartitionKey.map_eq_self {keys : List (PartitionKey α)} {g : α → α}
    (h : ∀ a ∈ keys.map (·.exp), g a = a) : keys.map (.map g) = keys := by
  refine List.map_eq_self fun key hkey => ?_
  rw [map, h _ (List.mem_map_of_mem hkey)]

/-- A bound stays the same if its offset does. -/
theorem FrameBound.map_eq_self {bound : FrameBound α} {g : α → α} (h : ∀ a ∈ bound.exps, g a = a) :
    bound.map g = bound := by
  cases bound with
  | preceding offset => exact congrArg _ (h offset (List.mem_singleton_self _))
  | following offset => exact congrArg _ (h offset (List.mem_singleton_self _))
  | currentRow | unboundedPreceding | unboundedFollowing => rfl

/-- An extent stays the same if its offsets do. -/
theorem FrameExtent.map_eq_self {extent : FrameExtent α} {g : α → α}
    (h : ∀ a ∈ extent.exps, g a = a) : extent.map g = extent := by
  cases extent with
  | start bound =>
    cases bound with
    | preceding offset => rw [map, FrameStart.map, h offset (List.mem_singleton_self _)]
    | currentRow | unboundedPreceding => rfl
  | between first second =>
    rw [map, FrameBound.map_eq_self fun a ha => h a (List.mem_append_left _ ha),
      FrameBound.map_eq_self fun a ha => h a (List.mem_append_right _ ha)]

/-- A window stays the same if its expressions do. -/
theorem WindowSpec.map_eq_self {window : WindowSpec α} {g : α → α}
    (h : ∀ a ∈ window.exps, g a = a) : window.map g = window := by
  have hpartitionBy : window.partitionBy.map (.map g) = window.partitionBy :=
    PartitionKey.map_eq_self fun a ha =>
      h a (List.mem_append_left _ (List.mem_append_left _ ha))
  have horderBy : window.orderBy.map (.map g) = window.orderBy :=
    SortKey.map_eq_self fun a ha => h a (List.mem_append_left _ (List.mem_append_right _ ha))
  have hframe : window.frame.map (.map g) = window.frame := by
    refine Option.map_eq_self fun frame hframe => ?_
    rw [WindowFrame.map, FrameExtent.map_eq_self fun a ha =>
      h a (List.mem_append_right _ (List.mem_flatMap.2 ⟨frame, hframe, ha⟩))]
  rw [map, hpartitionBy, horderBy, hframe]

/-- The window of a call stays the same if its expressions do. -/
theorem WindowOver.map_eq_self {overWindow : WindowOver α} {g : α → α}
    (h : ∀ a ∈ overWindow.exps, g a = a) : overWindow.map g = overWindow := by
  cases overWindow with
  | spec window => exact congrArg _ (WindowSpec.map_eq_self h)
  | name x => rfl

/-! ## Selects -/

/-- The item with another expression. -/
def SelectItem.map (g : α → β) (item : SelectItem α) : SelectItem β :=
  ⟨g item.exp, item.aliasName, item.nestedAlias⟩

/-- The limit with other expressions. -/
def Limit.map (g : α → β) (limit : Limit α) : Limit β :=
  ⟨g limit.count, limit.offset.map g⟩

/-- The single select with other expressions and sources. -/
def SelectCore.map (g : α → γ) (k : β → δ) (c : SelectCore α β) : SelectCore γ δ where
  quantifier := c.quantifier
  items := c.items.map (.map g)
  sources := c.sources.map k
  condition := c.condition.map g
  groupBy := c.groupBy.map g
  having := c.having.map g
  windows := c.windows.map (.map g)
  orderBy := c.orderBy.map (.map g)
  limit := c.limit.map (.map g)

/-- The further select with other expressions and sources. -/
def CompoundArm.map (g : α → γ) (k : β → δ) (arm : CompoundArm α β) : CompoundArm γ δ :=
  ⟨arm.op, arm.core.map g k⟩

/-- The select with other expressions and sources. -/
def Select.map (g : α → γ) (k : β → δ) (w : Select α β) : Select γ δ :=
  ⟨w.first.map g k, w.rest.map (.map g k)⟩

/-- The kind of join with another condition. -/
def JoinKind.map (g : α → β) : JoinKind α → JoinKind β
  | .cross => .cross
  | .natural type => .natural type
  | .on type condition => .on type (g condition)
  | .using type columns => .using type columns
  | .relationship link direction => .relationship link direction

/-- Replacing the condition of a join twice is replacing it once. -/
theorem JoinKind.map_map (g : α → β) (k : β → ε) (kind : JoinKind α) :
    (kind.map g).map k = kind.map (k ∘ g) := by
  cases kind <;> rfl

/-- Replacing the expressions and the sources of a select twice is replacing them once. -/
theorem SelectCore.map_map {ζ : Type} (g : α → γ) (k : β → δ) (g' : γ → ε) (k' : δ → ζ)
    (c : SelectCore α β) : (c.map g k).map g' k' = c.map (g' ∘ g) (k' ∘ k) := by
  have hwindows : (c.windows.map (.map g)).map (.map g')
      = c.windows.map (WindowDefinition.map (g' ∘ g)) := by
    rw [List.map_map]
    refine List.map_congr_left fun definition _ => ?_
    rw [Function.comp_apply, WindowDefinition.map, WindowDefinition.map, WindowDefinition.map,
      WindowSpec.map_map]
  have hlimit : (c.limit.map (.map g)).map (.map g') = c.limit.map (Limit.map (g' ∘ g)) := by
    rw [Option.map_map]
    refine Option.map_congr fun limit _ => ?_
    rw [Function.comp_apply, Limit.map, Limit.map, Limit.map, Option.map_map]
    rfl
  have hitems : (c.items.map (.map g)).map (.map g') = c.items.map (SelectItem.map (g' ∘ g)) :=
    List.map_map
  simp only [map, hwindows, hlimit, hitems, List.map_map, Option.map_map]
  rfl

/-- The expressions of items are replaced, and no others are added. -/
theorem SelectItem.exps_map (g : α → β) (items : List (SelectItem α)) :
    (items.map (SelectItem.map g)).map (·.exp) = (items.map (·.exp)).map g := by
  rw [List.map_map, List.map_map]
  rfl

/-- The expressions of windows with a name are replaced where they stand. -/
theorem WindowDefinition.exps_map (g : α → β) (windows : List (WindowDefinition α)) :
    (windows.map (WindowDefinition.map g)).flatMap (·.window.exps)
      = (windows.flatMap (·.window.exps)).map g := by
  induction windows with
  | nil => rfl
  | cons definition windows ih =>
    rw [List.map_cons, List.flatMap_cons, ih, List.flatMap_cons, List.map_append,
      ← WindowSpec.exps_map]
    rfl

/-- The count and the offset of a limit are replaced. -/
theorem Limit.exps_map (g : α → β) (limits : List (Limit α)) :
    (limits.map (Limit.map g)).flatMap (·.exps) = (limits.flatMap (·.exps)).map g := by
  induction limits with
  | nil => rfl
  | cons limit limits ih =>
    rw [List.map_cons, List.flatMap_cons, ih, List.flatMap_cons, List.map_append, Limit.map,
      Limit.exps, Limit.exps, List.map_cons, Option.toList_map]

/-- The conditions and values of branches are replaced where they stand. -/
theorem CaseBranch.exps_map (g : α → β) (branches : List (CaseBranch α)) :
    (branches.map (CaseBranch.map g)).flatMap (·.exps) = (branches.flatMap (·.exps)).map g := by
  rw [List.flatMap_map, List.map_flatMap]
  rfl

/-- Only the condition of a join is replaced. -/
theorem JoinKind.exps_map (g : α → β) (kind : JoinKind α) :
    (kind.map g).exps = kind.exps.map g := by
  cases kind <;> rfl

/-- The single selects of a compound are replaced one by one. -/
theorem Select.cores_map (g : α → γ) (k : β → δ) (w : Select α β) :
    (w.map g k).cores = w.cores.map (.map g k) := by
  rw [map, cores, cores, List.map_cons, List.map_map, List.map_map]
  rfl

/-- A select stays a compound, or stays none. -/
theorem Select.isCompound_map (g : α → γ) (k : β → δ) (w : Select α β) :
    (w.map g k).isCompound = w.isCompound := by
  rw [map, isCompound, isCompound, List.isEmpty_map]

/-- A kind of join stays the same if its condition does. -/
theorem JoinKind.map_eq_self {kind : JoinKind α} {g : α → α} (h : ∀ a ∈ kind.exps, g a = a) :
    kind.map g = kind := by
  cases kind with
  | on type condition => exact congrArg _ (h condition (List.mem_singleton_self _))
  | cross | natural | «using» | relationship => rfl

/-- A single select stays the same if its expressions and its sources do. -/
theorem SelectCore.map_eq_self {c : SelectCore α β} {g : α → α} {k : β → β}
    (hexps : ∀ a ∈ c.exps, g a = a) (hsources : ∀ b ∈ c.sources, k b = b) : c.map g k = c := by
  obtain ⟨quantifier, items, sources, condition, groupBy, having, windows, orderBy, limit⟩ := c
  simp only [exps, List.mem_append, or_imp, forall_and] at hexps
  obtain ⟨⟨⟨⟨⟨⟨hitems, hcondition⟩, hgroupBy⟩, hhaving⟩, hwindows⟩, horderBy⟩, hlimit⟩ := hexps
  have hitems : items.map (.map g) = items := by
    refine List.map_eq_self fun item hitem => ?_
    rw [SelectItem.map, hitems _ (List.mem_map_of_mem hitem)]
  have hwindows : windows.map (.map g) = windows := by
    refine List.map_eq_self fun definition hdefinition => ?_
    rw [WindowDefinition.map, WindowSpec.map_eq_self fun a ha =>
      hwindows a (List.mem_flatMap.2 ⟨definition, hdefinition, ha⟩)]
  have hlimit : limit.map (.map g) = limit := by
    refine Option.map_eq_self fun l hl => ?_
    have hl : ∀ a ∈ l.exps, g a = a := fun a ha => hlimit a (List.mem_flatMap.2 ⟨l, hl, ha⟩)
    rw [Limit.map, hl _ (List.mem_cons_self ..),
      Option.map_eq_self fun a ha => hl a (List.mem_cons_of_mem _ ha)]
  simp only [map, hitems, List.map_eq_self hsources, Option.map_eq_self hcondition,
    List.map_eq_self hgroupBy, Option.map_eq_self hhaving, hwindows, SortKey.map_eq_self horderBy,
    hlimit]

/-- A select stays the same if the single selects do that it is made of. -/
theorem Select.map_eq_self {w : Select α β} {g : α → α} {k : β → β}
    (h : ∀ c ∈ w.cores, c.map g k = c) : w.map g k = w := by
  have hrest : w.rest.map (.map g k) = w.rest := by
    refine List.map_eq_self fun arm harm => ?_
    rw [CompoundArm.map, h _ (List.mem_cons_of_mem _ (List.mem_map_of_mem harm))]
  rw [map, h _ (List.mem_cons_self ..), hrest]

end EntitySql
