import EntitySql.Lowering.Condition
import EntitySql.Lowering.Select
import EntitySql.Lowering.Value

/-!
# Expressions, sources and selects

The recursion over the syntax. It only turns the parts of an expression into operands, and those of
a select into operands and steps; what is made of them is said elsewhere, one kind of expression at
a time.
-/

namespace EntitySql

open Sql (Columns Fragment)

mutual

/-- The columns of an expression, at the depth at which it stands. -/
def Exp.body : Exp → Lowering Columns
  | .literal l => Lowering.literal l
  | .parameter p => Lowering.parameter p
  | .property p => Lowering.property p
  | .enumerator _ _ value => Lowering.enumerator value
  | .cast operand target => Lowering.cast ⟨operand, operand.body⟩ target
  | .arithmetic lhs op rhs _ parenthesized =>
    Lowering.arithmetic ⟨lhs, lhs.body⟩ op ⟨rhs, rhs.body⟩ parenthesized
  | .sign op operand _ => Lowering.sign op ⟨operand, operand.body⟩
  | .call c => do return [(← Lowering.call (callOperands c) .expression).sql]
  | .case branches otherwise _ =>
    Lowering.case (branchOperands branches) (optionOperand otherwise)
  | .iif condition consequent alternative _ =>
    Lowering.iif ⟨condition, condition.body⟩ ⟨consequent, consequent.body⟩
      ⟨alternative, alternative.body⟩
  | .navigation ⟨property, id, relationship, aliasName⟩ =>
    Lowering.navigation ⟨property, ⟨id, id.body⟩, optionOperand relationship, aliasName⟩
  | .extractProperty aliasName access _ => return Lowering.extractProperty aliasName access
  | .extractInstance aliasName => return Lowering.extractInstance aliasName
  | .subquery select => Lowering.subquery (Select.write select)
  | .list values => Lowering.list (listOperands values)
  | .typeList _ => Lowering.violate .misplacedTypeList
  | .window c filter overWindow =>
    Lowering.window (callOperands c) (optionOperand filter) (overOperands overWindow)
  | .boolean lhs op rhs parenthesized =>
    Lowering.boolean ⟨lhs, lhs.body⟩ op ⟨rhs, rhs.body⟩ parenthesized
  | .not operand parenthesized => Lowering.not ⟨operand, operand.body⟩ parenthesized
  | .between operand lower upper negated =>
    Lowering.between ⟨operand, operand.body⟩ ⟨lower, lower.body⟩ ⟨upper, upper.body⟩ negated
  | .like operand pattern escape negated =>
    Lowering.like ⟨operand, operand.body⟩ ⟨pattern, pattern.body⟩ (optionOperand escape) negated
  | .quantified operand op quantifier select =>
    Lowering.quantified ⟨operand, operand.body⟩ op quantifier select.isCompound
      (Select.write select)
  | .subqueryTest test select => Lowering.subqueryTest test (Select.write select)

/-- Expressions as operands. -/
def listOperands : List Exp → List Operand
  | [] => []
  | exp :: exps => ⟨exp, exp.body⟩ :: listOperands exps

/-- An expression that may be absent, as an operand. -/
def optionOperand : Option Exp → Option Operand
  | none => none
  | some exp => some ⟨exp, exp.body⟩

/-- A call with operands as arguments. -/
def callOperands : FunctionCall Exp → FunctionCall Operand
  | ⟨name, args, quantifier, star, type⟩ => ⟨name, listOperands args, quantifier, star, type⟩

/-- Branches made of operands. -/
def branchOperands : List (CaseBranch Exp) → List (CaseBranch Operand)
  | [] => []
  | ⟨condition, value⟩ :: branches =>
    ⟨⟨condition, condition.body⟩, ⟨value, value.body⟩⟩ :: branchOperands branches

/-- Keys of a partition as operands. -/
def partitionOperands : List (PartitionKey Exp) → List (PartitionKey Operand)
  | [] => []
  | ⟨exp, collation⟩ :: keys => ⟨⟨exp, exp.body⟩, collation⟩ :: partitionOperands keys

/-- Keys of a sort as operands. -/
def sortOperands : List (SortKey Exp) → List (SortKey Operand)
  | [] => []
  | ⟨exp, direction, nulls⟩ :: keys => ⟨⟨exp, exp.body⟩, direction, nulls⟩ :: sortOperands keys

/-- The start of a frame with an operand as offset. -/
def startOperands : FrameStart Exp → FrameStart Operand
  | .currentRow => .currentRow
  | .unboundedPreceding => .unboundedPreceding
  | .preceding offset => .preceding ⟨offset, offset.body⟩

/-- A bound of a frame with an operand as offset. -/
def boundOperands : FrameBound Exp → FrameBound Operand
  | .currentRow => .currentRow
  | .unboundedPreceding => .unboundedPreceding
  | .preceding offset => .preceding ⟨offset, offset.body⟩
  | .following offset => .following ⟨offset, offset.body⟩
  | .unboundedFollowing => .unboundedFollowing

/-- The rows of a frame with operands as offsets. -/
def extentOperands : FrameExtent Exp → FrameExtent Operand
  | .start start => .start (startOperands start)
  | .between first second => .between (boundOperands first) (boundOperands second)

/-- A frame that may be absent, with operands as offsets. -/
def frameOperands : Option (WindowFrame Exp) → Option (WindowFrame Operand)
  | none => none
  | some ⟨unit, extent, exclusion⟩ => some ⟨unit, extentOperands extent, exclusion⟩

/-- A window made of operands. -/
def windowOperands : WindowSpec Exp → WindowSpec Operand
  | ⟨base, partitionBy, orderBy, frame⟩ =>
    ⟨base, partitionOperands partitionBy, sortOperands orderBy, frameOperands frame⟩

/-- The window of a window function, made of operands. -/
def overOperands : WindowOver Exp → WindowOver Operand
  | .spec window => .spec (windowOperands window)
  | .name name => .name name

/-- Windows with names, made of operands. -/
def windowListOperands : List (WindowDefinition Exp) → List (WindowDefinition Operand)
  | [] => []
  | ⟨name, window⟩ :: windows => ⟨name, windowOperands window⟩ :: windowListOperands windows

/-- Items of a select as operands. -/
def itemOperands : List (SelectItem Exp) → List (SelectItem Operand)
  | [] => []
  | ⟨exp, aliasName, nestedAlias⟩ :: items =>
    ⟨⟨exp, exp.body⟩, aliasName, nestedAlias⟩ :: itemOperands items

/-- A limit that may be absent, made of operands. -/
def limitOperands : Option (Limit Exp) → Option (Limit Operand)
  | none => none
  | some ⟨count, offset⟩ => some ⟨⟨count, count.body⟩, optionOperand offset⟩

/-- The parts of a select as operands and steps. Its sources need the properties that it refers
to. -/
def coreOperands : SelectCore Exp Source → SelectCore Operand (Lowering Fragment)
  | ⟨quantifier, items, sources, condition, groupBy, having, windows, orderBy, limit⟩ =>
    { quantifier
      items := itemOperands items
      sources := sourceSteps sources (PropertyUsage.ofReferences (coreReferences
        ⟨quantifier, items, sources, condition, groupBy, having, windows, orderBy, limit⟩))
      condition := optionOperand condition
      groupBy := listOperands groupBy
      having := optionOperand having
      windows := windowListOperands windows
      orderBy := sortOperands orderBy
      limit := limitOperands limit }

/-- Further selects as operands and steps. -/
def armOperands : List (CompoundArm Exp Source) → List (CompoundArm Operand (Lowering Fragment))
  | [] => []
  | ⟨op, core⟩ :: arms => ⟨op, coreOperands core⟩ :: armOperands arms

/-- Writes a select. -/
def Select.write : Select Exp Source → Lowering Unit
  | ⟨first, rest⟩ =>
    Lowering.writeOr (·.select ⟨first, rest⟩)
      (Lowering.writeSelect ⟨coreOperands first, armOperands rest⟩)

/-- Sources as steps. -/
def sourceSteps : List Source → (String → PropertyUsage) → List (Lowering Fragment)
  | [], _ => []
  | source :: sources, usageOf => source.lower usageOf :: sourceSteps sources usageOf

/-- The kind of a join with an operand as condition. -/
def joinOperands : JoinKind Exp → JoinKind Operand
  | .cross => .cross
  | .natural type => .natural type
  | .on type condition => .on type ⟨condition, condition.body⟩
  | .using type columns => .using type columns
  | .relationship link direction => .relationship link direction

/-- A source as it stands in a `FROM` clause. `usageOf` tells which properties are needed of an
alias. -/
def Source.lower : Source → (String → PropertyUsage) → Lowering Fragment
  | .ofClass c, usageOf => Lowering.className usageOf c
  | .join lhs rhs kind, usageOf =>
    Lowering.join usageOf lhs.lastClass? rhs.lastClass? (lhs.lower usageOf) (rhs.lower usageOf)
      (joinOperands kind)
  | .subquery select aliasName, _ => Lowering.sourceSubquery (Select.write select) aliasName
  | .function c aliasName, _ => Lowering.sourceFunction (callOperands c) aliasName
  | .commonTable name aliasName, _ => return Lowering.commonTable name aliasName

end

/-- The columns of an expression, one level deeper. -/
def Exp.lower (exp : Exp) : Lowering Columns :=
  Lowering.nested exp.body

/-- An expression as an operand. -/
def Exp.operand (exp : Exp) : Operand :=
  ⟨exp, exp.body⟩

end EntitySql
