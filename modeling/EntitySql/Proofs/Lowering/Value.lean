import EntitySql.Proofs.Catalog.Lookup
import EntitySql.Proofs.Lowering.Form

/-!
# Values are lowered as specified

One lemma for each kind of value: if its operands are lowered as specified, so is the value, and its
columns have the form that the kind has.
-/

namespace EntitySql.Setting

open Lowering
open Sql (Columns Fragment)

variable {S : Setting} {R : Results} {e lhs rhs : Exp}

/-! ## Operands -/

/-- What happens while an expression is lowered. -/
def eventsOf (S : Setting) (e : Exp) : List Event :=
  (Node.exp e).events S.env

/-- The expression is lowered as specified, with the columns that `R` allows for. -/
def Lowers (S : Setting) (R : Results) (e : Exp) : Prop :=
  S.Spec (S.eventsOf e) e.body (R.exp e)

/-- With a bare `NULL` nothing happens. -/
theorem eventsOf_of_isNull (h : e.isNull = true) : S.eventsOf e = [] := by
  cases e with
  | literal l =>
    rw [eventsOf, Node.events_eq]
    rfl
  | _ => exact absurd h Bool.false_ne_true

/-- An expression is lowered one level below its body. -/
theorem Lowers.lower (h : S.Lowers R e) : S.Spec (S.eventsOf e) e.operand.lower (R.exp e) :=
  .nested h

/-- An operand that has to be one column is one, or the statement is rejected. -/
theorem Lowers.single (h : S.Lowers R e) (role : String) :
    S.Spec (S.eventsOf e) (e.operand.single role) (R.single e) := by
  refine h.lower.before fun columns => ?_
  match columns with
  | [] => exact .violate rfl
  | [column] => exact .pure id
  | _ :: _ :: _ => exact .reject

/-- An operand that may be missing is one column if it is there. -/
theorem spec_single? {e : Option Exp} (h : ∀ a ∈ e.toList, S.Lowers R a) (role : String) :
    S.Spec (e.toList.flatMap S.eventsOf) (Operand.single? (e.map Exp.operand) role)
      (Option.Rel R.single e) := by
  cases e with
  | none => exact .pure .none
  | some a =>
    rw [Option.toList_some, List.flatMap_singleton]
    exact ((h a (List.mem_singleton_self a)).single role).map fun _ hf => .some hf

/-- Columns that cannot be aligned are no defect. -/
theorem isDefect_of_align {l r : Exp} {ls rs : Columns} {violation : Violation}
    (h : align l ls r rs = .error violation) : violation.isDefect = false := by
  have hwidths : ∀ a b : Columns, (if a.length = b.length then Except.ok (a, b)
      else .error (Violation.operandWidths a.length b.length)) = .error violation →
      violation.isDefect = false := by
    intro a b hp
    split at hp
    · cases hp
    · obtain rfl := Except.error.inj hp
      rfl
  exact hwidths _ _ h

/-- Two operands are lowered in turn, and then aligned. -/
theorem spec_lowerAligned (hl : S.Lowers R lhs) (hr : S.Lowers R rhs) :
    S.Spec (S.eventsOf lhs ++ S.eventsOf rhs) (lhs.operand.lowerAligned rhs.operand)
      (R.aligned lhs rhs) := by
  refine hl.lower.bind fun ls => hr.lower.before fun rs => ?_
  exact .ofRule (fun _ => isDefect_of_align) fun p hp hrs hls => ⟨ls, rs, hls, hrs, hp⟩

/-! ## Constants, parameters and properties -/

/-- The text of a literal is made without events. -/
theorem spec_literalText (value : LiteralValue) :
    S.Spec [] (literalText value) fun x => x = value.sql := by
  cases value with
  | boolean b => cases b <;> exact .pure rfl
  | double d => exact .ite (fun _ => .pure rfl) fun _ => .reject
  | null | integer | string | date | timestamp => exact .pure rfl

/-- A literal is its text, or `NULL` once for each column of its type. -/
theorem spec_literal (l : Literal) : S.Spec [] (literal l) (Exp.Form S R (.literal l)) := by
  rw [literal]
  split
  next hnull => exact .pure (.null hnull)
  · refine (spec_literalText _).make ?_
    rintro _ rfl
    exact .literal

/-- An enumerator is the text of its value. -/
theorem spec_enumerator {enumeration name : String} {value : LiteralValue} :
    S.Spec [] (enumerator value) (Exp.Form S R (.enumerator enumeration name value)) := by
  refine (spec_literalText _).make ?_
  rintro _ rfl
  exact .enumerator

/-- A parameter is bound, and becomes the names that it is bound to. -/
theorem spec_parameter (p : Parameter) :
    S.Spec [.binds p] (parameter p) (Exp.Form S R (.parameter p)) := by
  refine .scope_bind fun scope => .ite (fun _ => .violate rfl) fun _ => ?_
  exact (Spec.bindParameter p).make fun _ => .parameter

/-- A property becomes the columns that its class map or its subquery has for it. -/
theorem spec_property (p : PropertyName) : S.Spec [] (property p) (p.Form S) := by
  rw [property]
  split
  next names htarget => exact .pure (.derived htarget)
  next id htarget =>
    refine .catalog_bind (.ofCatalog_bind (fun _ => S.env.catalog.findsTables_classMap _) ?_)
    intro map hmap
    split
    · exact .ofCatalog_bind (fun _ => S.env.catalog.findsTables_classDef _) fun _ _ =>
        .failCatalog fun _ => rfl
    · exact .scope_bind fun scope => .pure (.ofClass htarget hmap scope.kind)

/-! ## Expressions on values -/

/-- Arithmetic is done column by column on aligned operands. -/
theorem spec_arithmetic {op : ArithmeticOperator} {type : ValueType} {parenthesized : Bool}
    (hl : S.Lowers R lhs) (hr : S.Lowers R rhs) :
    S.Spec (S.eventsOf lhs ++ S.eventsOf rhs)
      (arithmetic lhs.operand op rhs.operand parenthesized)
      (Exp.Form S R (.arithmetic lhs op rhs type parenthesized)) :=
  (spec_lowerAligned hl hr).make fun _ => .arithmetic

/-- A sign stands before every column of its operand. -/
theorem spec_sign {op : SignOperator} {type : ValueType} (h : S.Lowers R e) :
    S.Spec (S.eventsOf e) (sign op e.operand) (Exp.Form S R (.sign op e type)) :=
  h.lower.make fun _ => .sign

/-- A branch is made of its condition and its value. -/
theorem spec_caseBranch {branch : CaseBranch Exp} (h : ∀ e ∈ branch.exps, S.Lowers R e) :
    S.Spec (branch.exps.flatMap S.eventsOf) (caseBranch (branch.map Exp.operand))
      (branch.Form R) := by
  have hcondition := h branch.condition (by simp [CaseBranch.exps])
  have hvalue := h branch.value (by simp [CaseBranch.exps])
  refine Spec.congr ((hcondition.single _).bind fun c => (hvalue.single _).make fun v hv hc => ?_)
    (by simp [CaseBranch.exps])
  exact ⟨c, v, hc, hv, rfl⟩

/-- A case is made of its branches and the value if none applies. -/
theorem spec_case {branches : List (CaseBranch Exp)} {otherwise : Option Exp} {type : ValueType}
    (h : ∀ e ∈ branches.flatMap (·.exps) ++ otherwise.toList, S.Lowers R e) :
    S.Spec ((branches.flatMap (·.exps) ++ otherwise.toList).flatMap S.eventsOf)
      (case (branches.map (·.map Exp.operand)) (otherwise.map Exp.operand))
      (Exp.Form S R (.case branches otherwise type)) := by
  obtain ⟨hbranches, hotherwise⟩ := List.forall_mem_append.1 h
  have hfs := Spec.mapM (l := branches) fun branch hbranch => spec_caseBranch fun e he =>
    hbranches e (List.mem_flatMap.2 ⟨branch, hbranch, he⟩)
  rw [List.flatMap_append, List.flatMap_assoc, case, List.mapM_map]
  refine hfs.bind fun fs => (spec_single? hotherwise _).make fun last hlast hfs => ?_
  have hcase : Exp.Form S R (.case branches otherwise type) _ := .case hfs hlast
  cases last <;> exact hcase

/-- An inline condition is a call with three arguments. -/
theorem spec_iif {condition consequent alternative : Exp} {type : ValueType}
    (hc : S.Lowers R condition) (ht : S.Lowers R consequent) (he : S.Lowers R alternative) :
    S.Spec (S.eventsOf condition ++ (S.eventsOf consequent ++ S.eventsOf alternative))
      (iif condition.operand consequent.operand alternative.operand)
      (Exp.Form S R (.iif condition consequent alternative type)) :=
  (hc.single _).bind fun _ => (ht.single _).bind fun _ => (he.single _).make fun _ he ht hc =>
    .iif hc ht he

/-- A list is written in parentheses, each value as one column. -/
theorem spec_list {values : List Exp} (h : ∀ e ∈ values, S.Lowers R e) :
    S.Spec (values.flatMap S.eventsOf) (list (values.map Exp.operand))
      (Exp.Form S R (.list values)) := by
  rw [list, List.mapM_map]
  exact (Spec.mapM fun e he => (h e he).single _).make fun _ => .list

/-- A cast leaves `NULL` as it is and otherwise converts column by column. -/
theorem spec_cast {target : ValueType} (h : S.Lowers R e) :
    S.Spec (S.eventsOf e) (Lowering.cast e.operand target) (Exp.Form S R (.cast e target)) := by
  refine .ite (fun hnull => ?_) fun _ => ?_
  · have hevents : S.eventsOf e = [] := eventsOf_of_isNull hnull
    rw [hevents]
    exact .pure (.castNull hnull)
  split
  · exact .reject
  next type htarget =>
    refine h.lower.before fun columns => .guard fun _ => ?_
    refine .ite (fun htype => .pure (.castSame (htype.trans htarget.symm))) fun _ => ?_
    exact .pure (.cast htarget)

/-- A navigation value becomes its number and its relationship class. -/
theorem spec_navigation {value : NavigationValue Exp} (hid : S.Lowers R value.id)
    (hrelationship : ∀ e ∈ value.relationship.toList, S.Lowers R e) :
    S.Spec ((value.id :: value.relationship.toList).flatMap S.eventsOf)
      (navigation (value.map Exp.operand)) (Exp.Form S R (.navigation value)) := by
  have hcolumns (declared : ClassId) :
      S.Spec ((value.id :: value.relationship.toList).flatMap S.eventsOf) (do
        let id ← value.id.operand.single "Navigation id"
        let relationship ← Operand.single? (value.relationship.map Exp.operand)
          "Navigation relationship class id"
        return [id, relationship.getD declared.text]) (Exp.Form S R (.navigation value)) := by
    rw [List.flatMap_cons]
    exact (hid.single _).bind fun _ => (spec_single? hrelationship _).make fun _ hr hi =>
      .navigation hi hr
  have hdeclared : S.Spec [] (declaredRelationship value.property) fun _ => True := by
    refine .catalog_bind ?_
    split
    · exact .pure trivial
    · exact .reject
  have hpositive (exp : Exp) (role : String) :
      S.Spec [] (checkPositive exp role) fun _ => True :=
    .ite (fun _ => .reject) fun _ => .pure trivial
  refine hdeclared.seq fun declared => (hpositive _ _).seq fun _ => ?_
  dsimp only
  split
  · refine (hpositive _ _).seq fun _ => ?_
    split
    · exact .scope_bind fun scope => .guard fun _ => hcolumns declared
    · exact hcolumns declared
  · split
    · exact .scope_bind fun scope => .guard fun _ => hcolumns declared
    · exact hcolumns declared

end EntitySql.Setting
