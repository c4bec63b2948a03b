import EntitySql.Syntax.Statement

/-!
# The nodes of a statement

A statement is a tree of expressions, sources, selects and the single selects that these combine.
`Node` is any of them, `Node.parts` lists what stands directly below a node, and `Node.Within` is
"somewhere below or equal to".

`Node.induction` is the induction over this tree: a property that passes from the parts of every
node to the node holds of all nodes. The clauses of a select are not nodes. Each only lists its
expressions, over any type of expressions, so that the lists can be compared when the expressions
are replaced by something else.
-/

namespace EntitySql

variable {α β : Type}

/-! ## The expressions of a clause -/

/-- The expressions of a branch. -/
def CaseBranch.exps (branch : CaseBranch α) : List α :=
  [branch.condition, branch.value]

/-- The expressions of the start of a frame. -/
def FrameStart.exps : FrameStart α → List α
  | .preceding offset => [offset]
  | .currentRow | .unboundedPreceding => []

/-- The expressions of a bound of a frame. -/
def FrameBound.exps : FrameBound α → List α
  | .preceding offset | .following offset => [offset]
  | .currentRow | .unboundedPreceding | .unboundedFollowing => []

/-- The expressions of the rows of a frame. -/
def FrameExtent.exps : FrameExtent α → List α
  | .start bound => bound.exps
  | .between first second => first.exps ++ second.exps

/-- The expressions of a window. -/
def WindowSpec.exps (window : WindowSpec α) : List α :=
  window.partitionBy.map (·.exp) ++ window.orderBy.map (·.exp)
    ++ window.frame.toList.flatMap (·.extent.exps)

/-- The expressions of the window of a window function. -/
def WindowOver.exps : WindowOver α → List α
  | .spec window => window.exps
  | .name _ => []

/-- The expressions of a limit. -/
def Limit.exps (limit : Limit α) : List α :=
  limit.count :: limit.offset.toList

/-- The expressions of a single select. -/
def SelectCore.exps (core : SelectCore α β) : List α :=
  core.items.map (·.exp) ++ core.condition.toList ++ core.groupBy ++ core.having.toList
    ++ core.windows.flatMap (·.window.exps) ++ core.orderBy.map (·.exp)
    ++ core.limit.toList.flatMap (·.exps)

/-- The single selects that a select combines. -/
def Select.cores (select : Select α β) : List (SelectCore α β) :=
  select.first :: select.rest.map (·.core)

/-- The expressions of a join. -/
def JoinKind.exps : JoinKind α → List α
  | .on _ condition => [condition]
  | .cross | .natural _ | .using .. | .relationship .. => []

/-! ## Nodes -/

/-- A part of a statement that can contain other parts. -/
inductive Node where
  | exp (e : Exp)
  | source (s : Source)
  | core (c : SelectCore Exp Source)
  | select (w : Select Exp Source)

/-- What stands directly below an expression. -/
def Exp.parts : Exp → List Node
  | .literal _ | .parameter _ | .property _ | .enumerator .. | .extractProperty ..
  | .extractInstance _ | .typeList _ => []
  | .cast operand _ | .sign _ operand _ | .not operand _ => [.exp operand]
  | .arithmetic lhs _ rhs _ _ | .boolean lhs _ rhs _ => [.exp lhs, .exp rhs]
  | .call c => c.args.map .exp
  | .case branches otherwise _ => (branches.flatMap (·.exps) ++ otherwise.toList).map .exp
  | .iif condition consequent alternative _ =>
    [.exp condition, .exp consequent, .exp alternative]
  | .navigation value => (value.id :: value.relationship.toList).map .exp
  | .subquery select | .subqueryTest _ select => [.select select]
  | .list values => values.map .exp
  | .window c filter overWindow => (c.args ++ filter.toList ++ overWindow.exps).map .exp
  | .between operand lower upper _ => [.exp operand, .exp lower, .exp upper]
  | .like operand pattern escape _ => (operand :: pattern :: escape.toList).map .exp
  | .quantified operand _ _ select => [.exp operand, .select select]

/-- What stands directly below a source. -/
def Source.parts : Source → List Node
  | .ofClass _ | .commonTable .. => []
  | .join lhs rhs kind => .source lhs :: .source rhs :: kind.exps.map .exp
  | .subquery select _ => [.select select]
  | .function c _ => c.args.map .exp

/-- What stands directly below a node. -/
def Node.parts : Node → List Node
  | .exp e => e.parts
  | .source s => s.parts
  | .core c => c.exps.map .exp ++ c.sources.map .source
  | .select w => w.cores.map .core

/-- A node stands somewhere below another one, or is that node. -/
inductive Node.Within (m : Node) : Node → Prop
  | self : Within m m
  | part {k n : Node} (hk : k ∈ n.parts) (h : Within m k) : Within m n

/-- What stands below a part stands below the whole. -/
theorem Node.Within.trans {m k n : Node} (hm : m.Within k) (hk : k.Within n) : m.Within n := by
  induction hk with
  | self => exact hm
  | part hpart _ ih => exact .part hpart ih

/-- What holds of all nodes below a node holds of the node and of all nodes below its parts. -/
theorem Node.forall_within_iff {P : Node → Prop} {n : Node} :
    (∀ m : Node, m.Within n → P m) ↔ P n ∧ ∀ k ∈ n.parts, ∀ m : Node, m.Within k → P m := by
  constructor
  · intro h
    exact ⟨h n .self, fun k hk m hm => h m (.part hk hm)⟩
  · rintro ⟨hself, hparts⟩ m hm
    cases hm with
    | self => exact hself
    | part hk h => exact hparts _ hk m h

/-! ## Induction over nodes -/

section Size

variable [SizeOf α] [SizeOf β]

theorem sizeOf_lt_of_mem_toList {o : Option α} {a : α} (h : a ∈ o.toList) :
    sizeOf a < sizeOf o := by
  obtain rfl := Option.mem_toList.1 h
  simp

/-- The offsets of an extent are smaller than it. -/
theorem FrameExtent.sizeOf_lt_of_mem_exps {extent : FrameExtent α} {exp : α}
    (h : exp ∈ extent.exps) : sizeOf exp < sizeOf extent := by
  cases extent with
  | start bound =>
    cases bound with
    | preceding offset =>
      obtain rfl := List.mem_singleton.1 h
      simp; omega
    | currentRow | unboundedPreceding => cases h
  | between first second =>
    rw [FrameExtent.exps, List.mem_append] at h
    rcases h with h | h
    · cases first <;> simp_all [FrameBound.exps] <;> omega
    · cases second <;> simp_all [FrameBound.exps] <;> omega

/-- The expressions of a window are smaller than it. -/
theorem WindowSpec.sizeOf_lt_of_mem_exps {window : WindowSpec α} {exp : α}
    (h : exp ∈ window.exps) : sizeOf exp < sizeOf window := by
  obtain ⟨base, partitionBy, orderBy, frame⟩ := window
  simp only [WindowSpec.exps, List.mem_append, List.mem_map, List.mem_flatMap] at h
  rcases h with (⟨⟨e, _⟩, hk, rfl⟩ | ⟨⟨e, _, _⟩, hk, rfl⟩) | ⟨⟨_, extent, _⟩, hk, he⟩
  · have := List.sizeOf_lt_of_mem hk
    simp at this ⊢; omega
  · have := List.sizeOf_lt_of_mem hk
    simp at this ⊢; omega
  · have h1 := sizeOf_lt_of_mem_toList hk
    have h2 := FrameExtent.sizeOf_lt_of_mem_exps he
    simp at h1 h2 ⊢; omega

/-- The expressions of a limit are smaller than it. -/
theorem Limit.sizeOf_lt_of_mem_exps {limit : Limit α} {exp : α} (h : exp ∈ limit.exps) :
    sizeOf exp < sizeOf limit := by
  obtain ⟨count, offset⟩ := limit
  rw [Limit.exps, List.mem_cons] at h
  rcases h with rfl | h
  · simp; omega
  · have := sizeOf_lt_of_mem_toList h
    simp at this ⊢; omega

/-- The expressions of a single select are smaller than it. -/
theorem SelectCore.sizeOf_lt_of_mem_exps {core : SelectCore α β} {exp : α}
    (h : exp ∈ core.exps) : sizeOf exp < sizeOf core := by
  obtain ⟨quantifier, items, sources, condition, groupBy, having, windows, orderBy, limit⟩ := core
  simp only [SelectCore.exps, List.mem_append, List.mem_map, List.mem_flatMap] at h
  rcases h with (((((⟨⟨e, _, _⟩, hk, rfl⟩ | hk) | hk) | hk) | ⟨⟨_, window⟩, hk, he⟩) |
    ⟨⟨e, _, _⟩, hk, rfl⟩) | ⟨clause, hk, he⟩
  · have := List.sizeOf_lt_of_mem hk
    simp at this ⊢; omega
  · have := sizeOf_lt_of_mem_toList hk
    simp at this ⊢; omega
  · have := List.sizeOf_lt_of_mem hk
    simp at this ⊢; omega
  · have := sizeOf_lt_of_mem_toList hk
    simp at this ⊢; omega
  · have h1 := List.sizeOf_lt_of_mem hk
    have h2 := WindowSpec.sizeOf_lt_of_mem_exps he
    simp at h1 h2 ⊢; omega
  · have := List.sizeOf_lt_of_mem hk
    simp at this ⊢; omega
  · have h1 := sizeOf_lt_of_mem_toList hk
    have h2 := Limit.sizeOf_lt_of_mem_exps he
    simp at h1 ⊢; omega

end Size

/-- The parts of an expression are smaller than it. -/
theorem Exp.sizeOf_lt_of_mem_parts {e : Exp} {m : Node} (h : m ∈ e.parts) :
    sizeOf m < sizeOf (Node.exp e) := by
  cases e with
  | call c =>
    obtain ⟨a, ha, rfl⟩ := List.mem_map.1 h
    have := List.sizeOf_lt_of_mem ha
    cases c
    simp at this ⊢; omega
  | case branches otherwise type =>
    obtain ⟨a, ha, rfl⟩ := List.mem_map.1 h
    rcases List.mem_append.1 ha with hb | hb
    · obtain ⟨⟨condition, value⟩, hk, he⟩ := List.mem_flatMap.1 hb
      have := List.sizeOf_lt_of_mem hk
      simp [CaseBranch.exps] at he
      rcases he with rfl | rfl <;> simp at this ⊢ <;> omega
    · have := sizeOf_lt_of_mem_toList hb
      simp; omega
  | navigation value =>
    obtain ⟨property, id, relationship, aliasName⟩ := value
    obtain ⟨a, ha, rfl⟩ := List.mem_map.1 h
    rcases List.mem_cons.1 ha with rfl | hb
    · simp; omega
    · have := sizeOf_lt_of_mem_toList hb
      simp at this ⊢; omega
  | list values =>
    obtain ⟨a, ha, rfl⟩ := List.mem_map.1 h
    have := List.sizeOf_lt_of_mem ha
    simp; omega
  | window c filter overWindow =>
    obtain ⟨a, ha, rfl⟩ := List.mem_map.1 h
    rcases List.mem_append.1 ha with hb | hb
    · rcases List.mem_append.1 hb with hb | hb
      · have := List.sizeOf_lt_of_mem hb
        cases c
        simp at this ⊢; omega
      · have := sizeOf_lt_of_mem_toList hb
        simp; omega
    · cases overWindow with
      | spec window =>
        have := WindowSpec.sizeOf_lt_of_mem_exps hb
        simp; omega
      | name => simp [WindowOver.exps] at hb
  | like operand pattern escape negated =>
    obtain ⟨a, ha, rfl⟩ := List.mem_map.1 h
    simp only [List.mem_cons] at ha
    rcases ha with rfl | rfl | hb
    · simp; omega
    · simp; omega
    · have := sizeOf_lt_of_mem_toList hb
      simp at this ⊢; omega
  | literal | parameter | property | enumerator | extractProperty | extractInstance | typeList =>
    cases h
  | cast | sign | not | subquery | subqueryTest =>
    obtain rfl := List.mem_singleton.1 h
    simp <;> omega
  | arithmetic | boolean | quantified =>
    simp only [Exp.parts, List.mem_cons, List.not_mem_nil, or_false] at h
    rcases h with rfl | rfl <;> simp <;> omega
  | iif | between =>
    simp only [Exp.parts, List.mem_cons, List.not_mem_nil, or_false] at h
    rcases h with rfl | rfl | rfl <;> simp <;> omega

/-- The parts of a source are smaller than it. -/
theorem Source.sizeOf_lt_of_mem_parts {s : Source} {m : Node} (h : m ∈ s.parts) :
    sizeOf m < sizeOf (Node.source s) := by
  cases s with
  | join lhs rhs kind =>
    simp only [Source.parts, List.mem_cons, List.mem_map] at h
    rcases h with rfl | rfl | ⟨a, ha, rfl⟩
    · simp; omega
    · simp; omega
    · cases kind with
      | on type condition =>
        obtain rfl := List.mem_singleton.1 ha
        simp; omega
      | natural | «using» | cross | relationship => cases ha
  | function c aliasName =>
    obtain ⟨a, ha, rfl⟩ := List.mem_map.1 h
    have := List.sizeOf_lt_of_mem ha
    cases c
    simp at this ⊢; omega
  | subquery select aliasName =>
    simp [Source.parts] at h
    simp [h]; omega
  | ofClass | commonTable => simp [Source.parts] at h

/-- What stands below a node is smaller than the node. -/
theorem Node.sizeOf_lt_of_mem_parts {m n : Node} (h : m ∈ n.parts) : sizeOf m < sizeOf n := by
  cases n with
  | exp e => exact Exp.sizeOf_lt_of_mem_parts h
  | source s => exact Source.sizeOf_lt_of_mem_parts h
  | core c =>
    rw [Node.parts, List.mem_append, List.mem_map, List.mem_map] at h
    rcases h with ⟨a, ha, rfl⟩ | ⟨a, ha, rfl⟩
    · have := SelectCore.sizeOf_lt_of_mem_exps ha
      simp; omega
    · have := List.sizeOf_lt_of_mem ha
      cases c
      simp at this ⊢; omega
  | select w =>
    obtain ⟨first, rest⟩ := w
    simp only [Node.parts, Select.cores, List.map_cons, List.mem_cons, List.mem_map] at h
    rcases h with rfl | ⟨_, ⟨⟨op, c⟩, ha, rfl⟩, rfl⟩
    · simp; omega
    · have := List.sizeOf_lt_of_mem ha
      simp at this ⊢; omega

/-- A property that passes from the parts of every node to the node holds of all nodes. -/
theorem Node.induction {P : Node → Prop} (h : ∀ n, (∀ m ∈ n.parts, P m) → P n) (n : Node) : P n :=
  h n fun m _ => Node.induction h m
termination_by sizeOf n
decreasing_by exact Node.sizeOf_lt_of_mem_parts (by assumption)

end EntitySql
