import EntitySql.Syntax.Statement
import EntitySql.Text.NameSet
import EntitySql.Text.Path

/-!
# References to properties

`references` lists every reference that a select makes to a property or to a whole instance,
anywhere inside it: in nested subqueries, join conditions, windows and limits too. `PropertyUsage`
tells from them which properties of an alias are needed.
-/

namespace EntitySql

/-- A reference through the alias of a class. -/
inductive Reference where
  /-- To the property at the root of a path. -/
  | property (aliasName root : String)
  /-- To the instance as a whole. -/
  | wholeInstance (aliasName : String)
deriving DecidableEq

/-- The reference that a property name makes. -/
def PropertyName.reference (property : PropertyName) : Reference :=
  .property property.aliasName (Text.rootName property.access)

mutual

/-- The references made by an expression. -/
def Exp.references : Exp → List Reference
  | .property p => [p.reference]
  | .extractProperty aliasName access _ => [.property aliasName (Text.rootName access)]
  | .extractInstance aliasName => [.wholeInstance aliasName]
  | .literal _ | .parameter _ | .enumerator .. | .typeList _ => []
  | .cast operand _ => operand.references
  | .arithmetic lhs _ rhs _ _ => lhs.references ++ rhs.references
  | .sign _ operand _ => operand.references
  | .call c => callReferences c
  | .case branches otherwise _ => branchReferences branches ++ optionReferences otherwise
  | .iif condition consequent alternative _ =>
    condition.references ++ consequent.references ++ alternative.references
  | .navigation ⟨property, id, relationship, _⟩ =>
    property.reference :: (id.references ++ optionReferences relationship)
  | .subquery select => selectReferences select
  | .list values => listReferences values
  | .window c filter overWindow =>
    callReferences c ++ optionReferences filter ++ overReferences overWindow
  | .boolean lhs _ rhs _ => lhs.references ++ rhs.references
  | .not operand _ => operand.references
  | .between operand lower upper _ =>
    operand.references ++ lower.references ++ upper.references
  | .like operand pattern escape _ =>
    operand.references ++ pattern.references ++ optionReferences escape
  | .quantified operand _ _ select => operand.references ++ selectReferences select
  | .subqueryTest _ select => selectReferences select

/-- The references made by some expressions. -/
def listReferences : List Exp → List Reference
  | [] => []
  | exp :: exps => exp.references ++ listReferences exps

/-- The references made by an expression that may be absent. -/
def optionReferences : Option Exp → List Reference
  | none => []
  | some exp => exp.references

/-- The references made by a call. -/
def callReferences : FunctionCall Exp → List Reference
  | ⟨_, args, _, _, _⟩ => listReferences args

/-- The references made by some branches. -/
def branchReferences : List (CaseBranch Exp) → List Reference
  | [] => []
  | ⟨condition, value⟩ :: branches =>
    condition.references ++ value.references ++ branchReferences branches

/-- The references made by some keys of a partition. -/
def partitionReferences : List (PartitionKey Exp) → List Reference
  | [] => []
  | ⟨exp, _⟩ :: keys => exp.references ++ partitionReferences keys

/-- The references made by some keys of a sort. -/
def sortReferences : List (SortKey Exp) → List Reference
  | [] => []
  | ⟨exp, _, _⟩ :: keys => exp.references ++ sortReferences keys

/-- The references made by a bound of a frame. -/
def boundReferences : FrameBound Exp → List Reference
  | .preceding offset | .following offset => offset.references
  | .currentRow | .unboundedPreceding | .unboundedFollowing => []

/-- The references made by the rows of a frame. -/
def extentReferences : FrameExtent Exp → List Reference
  | .start (.preceding offset) => offset.references
  | .start .currentRow | .start .unboundedPreceding => []
  | .between first second => boundReferences first ++ boundReferences second

/-- The references made by a frame that may be absent. -/
def frameReferences : Option (WindowFrame Exp) → List Reference
  | none => []
  | some ⟨_, extent, _⟩ => extentReferences extent

/-- The references made by a window. -/
def windowReferences : WindowSpec Exp → List Reference
  | ⟨_, partitionBy, orderBy, frame⟩ =>
    partitionReferences partitionBy ++ sortReferences orderBy ++ frameReferences frame

/-- The references made by the window of a window function. -/
def overReferences : WindowOver Exp → List Reference
  | .spec window => windowReferences window
  | .name _ => []

/-- The references made by some windows with names. -/
def windowListReferences : List (WindowDefinition Exp) → List Reference
  | [] => []
  | ⟨_, window⟩ :: windows => windowReferences window ++ windowListReferences windows

/-- The references made by some items of a select. -/
def itemReferences : List (SelectItem Exp) → List Reference
  | [] => []
  | ⟨exp, _, _⟩ :: items => exp.references ++ itemReferences items

/-- The references made by a limit that may be absent. -/
def limitReferences : Option (Limit Exp) → List Reference
  | none => []
  | some ⟨count, offset⟩ => count.references ++ optionReferences offset

/-- The references made by a select that is not combined with others. -/
def coreReferences : SelectCore Exp Source → List Reference
  | ⟨_, items, sources, condition, groupBy, having, windows, orderBy, limit⟩ =>
    itemReferences items ++ sourceListReferences sources ++ optionReferences condition
      ++ listReferences groupBy ++ optionReferences having ++ windowListReferences windows
      ++ sortReferences orderBy ++ limitReferences limit

/-- The references made by some further selects. -/
def armReferences : List (CompoundArm Exp Source) → List Reference
  | [] => []
  | ⟨_, core⟩ :: arms => coreReferences core ++ armReferences arms

/-- The references made by a select. -/
def selectReferences : Select Exp Source → List Reference
  | ⟨first, rest⟩ => coreReferences first ++ armReferences rest

/-- The references made by some sources. -/
def sourceListReferences : List Source → List Reference
  | [] => []
  | source :: sources => source.references ++ sourceListReferences sources

/-- The references made by a source. -/
def Source.references : Source → List Reference
  | .ofClass _ | .commonTable .. => []
  | .join lhs rhs (.on _ condition) => lhs.references ++ rhs.references ++ condition.references
  | .join lhs rhs .cross | .join lhs rhs (.natural _) | .join lhs rhs (.using ..)
  | .join lhs rhs (.relationship ..) => lhs.references ++ rhs.references
  | .subquery select _ => selectReferences select
  | .function c _ => callReferences c

end

/-! ## Which properties are needed -/

/-- The properties of one alias that a select needs. -/
inductive PropertyUsage where
  | all
  /-- Only these, by their names in small letters. -/
  | only (names : Text.NameSet)

namespace PropertyUsage

/-- Whether a property is among those needed. -/
def includes (usage : PropertyUsage) (property : String) : Bool :=
  match usage with
  | .all => true
  | .only names => names.contains (Text.lowerCase property)

/-- The root in small letters, if the reference is to a property through this alias. -/
def rootThrough? (aliasName : String) : Reference → Option String
  | .property through root =>
    if Text.sameName through aliasName then some (Text.lowerCase root) else none
  | .wholeInstance _ => none

/-- Whether the reference is to the whole instance through this alias. -/
def isWholeThrough (aliasName : String) : Reference → Bool
  | .property .. => false
  | .wholeInstance through => Text.sameName through aliasName

/-- The properties of an alias that some references need. -/
def ofReferences (references : List Reference) (aliasName : String) : PropertyUsage :=
  if references.any (isWholeThrough aliasName) then .all
  else .only (.ofList (references.filterMap (rootThrough? aliasName)))

end PropertyUsage

end EntitySql
