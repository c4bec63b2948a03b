import EntitySql.Lowering.Exp
import EntitySql.Proofs.Syntax.Map

/-!
# The operands of a clause

The recursion over the syntax only turns expressions into operands: the operands of a clause are the
clause, mapped over its expressions.
-/

namespace EntitySql

/-! ## Expressions and calls -/

/-- In the recursion over expressions, the operands of a list are those of its members. -/
theorem listOperands_eq (exps : List Exp) : listOperands exps = exps.map Exp.operand := by
  induction exps with
  | nil => rw [listOperands, List.map_nil]
  | cons exp exps ih => rw [listOperands, ih, List.map_cons, Exp.operand]

/-- In the recursion over expressions, the operand of one that may be missing. -/
theorem optionOperand_eq (exp : Option Exp) : optionOperand exp = exp.map Exp.operand := by
  cases exp with
  | none => rw [optionOperand, Option.map_none]
  | some exp => rw [optionOperand, Option.map_some, Exp.operand]

/-- The operands of a call are those of its arguments. -/
theorem callOperands_eq (c : FunctionCall Exp) : callOperands c = c.map Exp.operand := by
  rw [callOperands, listOperands_eq, FunctionCall.map]

/-- The operands of branches are those of their conditions and values. -/
theorem branchOperands_eq (branches : List (CaseBranch Exp)) :
    branchOperands branches = branches.map (.map Exp.operand) := by
  induction branches with
  | nil => rw [branchOperands, List.map_nil]
  | cons branch branches ih => rw [branchOperands, ih, List.map_cons]; rfl

/-- The operands of a navigation value are those of its two expressions. -/
theorem body_navigation (value : NavigationValue Exp) :
    (Exp.navigation value).body = Lowering.navigation (value.map Exp.operand) := by
  rw [Exp.body, optionOperand_eq]
  rfl

/-! ## Windows -/

/-- The operands of keys of partitions are those of their expressions. -/
theorem partitionOperands_eq (keys : List (PartitionKey Exp)) :
    partitionOperands keys = keys.map (.map Exp.operand) := by
  induction keys with
  | nil => rw [partitionOperands, List.map_nil]
  | cons key keys ih => rw [partitionOperands, ih, List.map_cons]; rfl

/-- The operands of keys of orders are those of their expressions. -/
theorem sortOperands_eq (keys : List (SortKey Exp)) :
    sortOperands keys = keys.map (.map Exp.operand) := by
  induction keys with
  | nil => rw [sortOperands, List.map_nil]
  | cons key keys ih => rw [sortOperands, ih, List.map_cons]; rfl

/-- The operand of a bound is that of its offset. -/
theorem boundOperands_eq (bound : FrameBound Exp) :
    boundOperands bound = bound.map Exp.operand := by
  cases bound <;> rw [boundOperands] <;> rfl

/-- The operands of an extent are those of its offsets. -/
theorem extentOperands_eq (extent : FrameExtent Exp) :
    extentOperands extent = extent.map Exp.operand := by
  cases extent with
  | start bound => cases bound <;> rw [extentOperands, startOperands] <;> rfl
  | between first second => rw [extentOperands, boundOperands_eq, boundOperands_eq]; rfl

/-- The operands of a window are those of its expressions. -/
theorem windowOperands_eq (window : WindowSpec Exp) :
    windowOperands window = window.map Exp.operand := by
  have hframe (frame : Option (WindowFrame Exp)) :
      frameOperands frame = frame.map (.map Exp.operand) := by
    cases frame with
    | none => rw [frameOperands]; rfl
    | some frame => rw [frameOperands, extentOperands_eq]; rfl
  rw [windowOperands, partitionOperands_eq, sortOperands_eq, hframe, WindowSpec.map]

/-- The operands of the window of a call are those of its expressions. -/
theorem overOperands_eq (overWindow : WindowOver Exp) :
    overOperands overWindow = overWindow.map Exp.operand := by
  cases overWindow with
  | spec window => rw [overOperands, windowOperands_eq]; rfl
  | name x => rw [overOperands]; rfl

/-- The operands of windows with a name are those of their expressions. -/
theorem windowListOperands_eq (windows : List (WindowDefinition Exp)) :
    windowListOperands windows = windows.map (.map Exp.operand) := by
  induction windows with
  | nil => rw [windowListOperands, List.map_nil]
  | cons definition windows ih =>
    rw [windowListOperands, ih, List.map_cons, windowOperands_eq, WindowDefinition.map]

/-! ## Selects and sources -/

/-- The operands of items are those of their expressions. -/
theorem itemOperands_eq (items : List (SelectItem Exp)) :
    itemOperands items = items.map (.map Exp.operand) := by
  induction items with
  | nil => rw [itemOperands, List.map_nil]
  | cons item items ih => rw [itemOperands, ih, List.map_cons]; rfl

/-- The operands of a limit are those of its count and its offset. -/
theorem limitOperands_eq (limit : Option (Limit Exp)) :
    limitOperands limit = limit.map (.map Exp.operand) := by
  cases limit with
  | none => rw [limitOperands]; rfl
  | some limit => rw [limitOperands, optionOperand_eq]; rfl

/-- In the recursion over sources, the members of a list are lowered one by one. -/
theorem sourceSteps_eq (sources : List Source) (usageOf : String → PropertyUsage) :
    sourceSteps sources usageOf = sources.map (·.lower usageOf) := by
  induction sources with
  | nil => rw [sourceSteps, List.map_nil]
  | cons source sources ih => rw [sourceSteps, ih, List.map_cons]

/-- The operand of a kind of join is that of its condition. -/
theorem joinOperands_eq (kind : JoinKind Exp) : joinOperands kind = kind.map Exp.operand := by
  cases kind <;> rw [joinOperands] <;> rfl

/-- The sources of a select are lowered with the properties that the select refers to. -/
theorem coreOperands_eq (c : SelectCore Exp Source) :
    coreOperands c
      = c.map Exp.operand (·.lower (PropertyUsage.ofReferences (coreReferences c))) := by
  rw [coreOperands, itemOperands_eq, sourceSteps_eq, optionOperand_eq, listOperands_eq,
    optionOperand_eq, windowListOperands_eq, sortOperands_eq, limitOperands_eq, SelectCore.map]

/-- Operands leave out no `DISTINCT`. -/
theorem quantifier_coreOperands (c : SelectCore Exp Source) :
    (coreOperands c).quantifier = c.quantifier := by
  rw [coreOperands_eq]
  rfl

/-- The further selects of a compound are lowered with references of their own. -/
theorem armOperands_eq (arms : List (CompoundArm Exp Source)) :
    armOperands arms = arms.map fun arm => ⟨arm.op, coreOperands arm.core⟩ := by
  induction arms with
  | nil => rw [armOperands, List.map_nil]
  | cons arm arms ih => rw [armOperands, ih, List.map_cons]

end EntitySql
