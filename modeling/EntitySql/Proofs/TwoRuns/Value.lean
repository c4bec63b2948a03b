import EntitySql.Proofs.Names
import EntitySql.Proofs.Syntax.References
import EntitySql.Proofs.TwoRuns.Basic

/-!
# Values in two runs

One lemma for each kind of value: if both runs agree on the operands, they agree on the value. An
expression of the first run has the same shape in the second run, with other texts in it.
-/

namespace EntitySql

open Sql (Columns Fillings Fragment bracketed)

/-! ## Lists of columns -/

namespace Sql.Fillings

variable {F : Fillings} {fs gs fs' gs' : Columns}

/-- Columns that are texts without holes. -/
theorem ColumnsAlike.texts {γ : Type} (l : List γ) (text : γ → String) :
    F.ColumnsAlike (l.map fun c => text c) (l.map fun c => text c) := by
  refine List.forall₂_same.2 fun f hf => ?_
  obtain ⟨c, -, rfl⟩ := List.mem_map.1 hf
  exact .refl _

theorem columnsAlike_nullColumns (parenthesized : Bool) (count : Nat) :
    F.ColumnsAlike (nullColumns parenthesized count) (nullColumns parenthesized count) := by
  refine List.forall₂_same.2 fun f hf => ?_
  rw [List.eq_of_mem_replicate hf]
  exact .refl _

theorem ColumnsAlike.singleton {f g : Fragment} (h : F.FragmentsAlike f g) :
    F.ColumnsAlike [f] [g] :=
  .cons h .nil

/-- What is done to every column on both sides keeps them alike. -/
theorem ColumnsAlike.map {k k' : Fragment → Fragment} (h : F.ColumnsAlike fs gs)
    (hk : ∀ f g, F.FragmentsAlike f g → F.FragmentsAlike (k f) (k' g)) :
    F.ColumnsAlike (fs.map k) (gs.map k') := by
  rw [ColumnsAlike, List.forall₂_map_left_iff, List.forall₂_map_right_iff]
  exact h.imp hk

/-- Lists of alike columns are alike in a row. -/
theorem ColumnsAlike.flatten {ls ls' : List Columns} (h : List.Forall₂ F.ColumnsAlike ls ls') :
    F.ColumnsAlike ls.flatten ls'.flatten := by
  induction h with
  | nil => exact .nil
  | cons hl _ ih => exact List.rel_append hl ih

/-- Pairing columns on both sides keeps them alike. -/
theorem ColumnsAlike.zipWith {k : Fragment → Fragment → Fragment} (h : F.ColumnsAlike fs gs)
    (h' : F.ColumnsAlike fs' gs')
    (hk : ∀ f g f' g', F.FragmentsAlike f g → F.FragmentsAlike f' g' →
      F.FragmentsAlike (k f f') (k g g')) :
    F.ColumnsAlike (List.zipWith k fs fs') (List.zipWith k gs gs') := by
  rw [← List.map_uncurry_zip_eq_zipWith, ← List.map_uncurry_zip_eq_zipWith, ColumnsAlike,
    List.forall₂_map_left_iff, List.forall₂_map_right_iff]
  exact (forall₂_zip h h').imp fun p q hpq => hk _ _ _ _ hpq.1 hpq.2

/-- Alike columns have the same numbers. -/
theorem ColumnsAlike.zipIdx (h : F.ColumnsAlike fs gs) (n : Nat) :
    List.Forall₂ (fun p q => F.FragmentsAlike p.1 q.1 ∧ p.2 = q.2) (fs.zipIdx n) (gs.zipIdx n) := by
  induction h generalizing n with
  | nil => exact .nil
  | cons hfg _ ih => exact .cons ⟨hfg, rfl⟩ (ih (n + 1))

end Sql.Fillings

namespace TwoRuns

open Lowering

variable {W : TwoRuns} {σ : List Scope} {e lhs rhs : Exp}

/-! ## Operands -/

/-- An expression of the first run as an operand of the second run. -/
def image (W : TwoRuns) (e : Exp) : Operand :=
  (e.mapTexts W.rename).operand

/-- The runs agree on the columns of an expression. -/
def Lowers (W : TwoRuns) (σ : List Scope) (e : Exp) : Prop :=
  W.Agree σ e.operand.body (W.image e).body W.ColumnsAlike

/-- Runs agree on an expression one level below its body. -/
theorem Lowers.lower (h : W.Lowers σ e) :
    W.Agree σ e.operand.lower (W.image e).lower W.ColumnsAlike :=
  .nested h

/-- Runs agree on an operand that has to be one column. -/
theorem Lowers.single {role : String} (h : W.Lowers σ e) :
    W.Agree σ (e.operand.single role) ((W.image e).single role) W.FragmentsAlike := by
  refine h.lower.bind fun fs gs hfs => ?_
  have hlength := hfs.length_eq
  cases hfs with
  | nil => exact .violate
  | cons hfg hrest =>
    cases hrest with
    | nil => exact .pure hfg
    | cons =>
      show W.Agree σ (reject (.severalColumns role _)) (reject (.severalColumns role _)) _
      rw [hlength]
      exact .reject

/-- Runs agree on an operand that may be missing. -/
theorem agree_single? {exp : Option Exp} {role : String} (h : ∀ e ∈ exp.toList, W.Lowers σ e) :
    W.Agree σ (Operand.single? (exp.map Exp.operand) role) (Operand.single? (exp.map W.image) role)
      (Option.Rel W.FragmentsAlike) := by
  cases exp with
  | none => exact .pure .none
  | some e => exact (h e (List.mem_singleton_self e)).single.map fun _ _ hfg => .some hfg

/-- The first columns are alike, and so are the second ones. -/
abbrev BothAlike (W : TwoRuns) (p q : Columns × Columns) : Prop :=
  W.ColumnsAlike p.1 q.1 ∧ W.ColumnsAlike p.2 q.2

theorem columnsAlike_ite {c : Bool} {fs gs fs' gs' : Columns} (h : W.ColumnsAlike fs gs)
    (h' : W.ColumnsAlike fs' gs') :
    W.ColumnsAlike (if c then fs else fs') (if c then gs else gs') := by
  cases c with
  | false => exact h'
  | true => exact h

/-- Columns are aligned on both sides or on none. -/
theorem same_align {ls ls' rs rs' : Columns} (l r : Exp) (hl : W.ColumnsAlike ls ls')
    (hr : W.ColumnsAlike rs rs') :
    SameOutcome W.BothAlike (align l ls r rs)
      (align (l.mapTexts W.rename) ls' (r.mapTexts W.rename) rs') := by
  -- `a` and `b` are the columns after `NULL` was widened on either side
  have hwidened : ∀ a a' b b' : Columns, W.ColumnsAlike a a' → W.ColumnsAlike b b' →
      SameOutcome W.BothAlike
        (if a.length = b.length then Except.ok (a, b)
          else .error (Violation.operandWidths a.length b.length))
        (if a'.length = b'.length then Except.ok (a', b')
          else .error (Violation.operandWidths a'.length b'.length)) := by
    intro a a' b b' ha hb
    rw [← ha.length_eq, ← hb.length_eq]
    split
    · exact .ok ⟨ha, hb⟩
    · exact .error _
  unfold align
  simp only [Exp.isNull_mapTexts, Exp.isParenthesized_mapTexts, ← hl.length_eq, ← hr.length_eq]
  exact hwidened _ _ _ _ (columnsAlike_ite (Fillings.columnsAlike_nullColumns ..) hl)
    (columnsAlike_ite (Fillings.columnsAlike_nullColumns ..) hr)

/-- Runs agree on aligned operands. -/
theorem agree_lowerAligned (hl : W.Lowers σ lhs) (hr : W.Lowers σ rhs) :
    W.Agree σ (lhs.operand.lowerAligned rhs.operand) ((W.image lhs).lowerAligned (W.image rhs))
      W.BothAlike :=
  hl.lower.bind fun _ _ hls => hr.lower.bind fun _ _ hrs => .ofRule (same_align lhs rhs hls hrs)

/-! ## Constants, parameters and properties -/

/-- A text of the first run and its counterpart in the second run are alike in quotes. -/
def RenamesText (W : TwoRuns) (text : String) : Prop :=
  W.Alike (Sql.quoted text) (Sql.quoted (W.rename text))

/-- The texts of literals are those that holes stand for. -/
theorem agree_literalText {value : LiteralValue} (h : ∀ x ∈ value.texts, W.RenamesText x) :
    W.Agree σ (literalText value) (literalText (value.mapTexts W.rename)) W.Alike := by
  cases value with
  | null => exact .pure (.refl _)
  | boolean b => cases b <;> exact .pure (.refl _)
  | integer n => exact .pure (.refl _)
  | double d =>
    rw [LiteralValue.mapTexts, literalText]
    split
    · exact .pure (.refl _)
    · exact .reject
  | string text => exact .pure (h text (List.mem_singleton_self text))
  | date text | timestamp text =>
    exact .pure (((Sql.FromTemplate.refl _).append (h text (List.mem_singleton_self text))).append
      (.refl _))

/-- Runs agree on literals, as far as their texts are renamed. -/
theorem agree_literal {l : Literal} (h : ∀ x ∈ l.value.texts, W.RenamesText x) :
    W.Agree σ (literal l) (literal (l.mapTexts W.rename)) W.ColumnsAlike := by
  obtain ⟨value, type, parenthesized⟩ := l
  have htext : W.Agree σ
      (do return [Fragment.parenthesizedIf parenthesized (← literalText value)])
      (do return [Fragment.parenthesizedIf parenthesized
        (← literalText (value.mapTexts W.rename))]) W.ColumnsAlike :=
    (agree_literalText h).bind fun _ _ hab =>
      .pure (.singleton ((Fillings.FragmentsAlike.ofText hab).parenthesizedIf parenthesized))
  cases value with
  | null => exact .pure (Fillings.columnsAlike_nullColumns ..)
  | boolean | integer | double | string | date | timestamp => exact htext

/-- Runs agree on enumerators, as far as their texts are renamed. -/
theorem agree_enumerator {value : LiteralValue} (h : ∀ x ∈ value.texts, W.RenamesText x) :
    W.Agree σ (enumerator value) (enumerator (value.mapTexts W.rename)) W.ColumnsAlike :=
  (agree_literalText h).bind fun _ _ hab => .pure (.singleton (.ofText hab))

/-- Runs agree on parameters. -/
theorem agree_parameter {p : Parameter} :
    W.Agree σ (parameter p) (parameter p) W.ColumnsAlike := by
  have hnames : W.Agree σ (bindParameter p >>= fun names => pure (names.map Fragment.ofText))
      (bindParameter p >>= fun names => pure (names.map Fragment.ofText)) W.ColumnsAlike := by
    refine .bind .bindParameter ?_
    rintro names _ rfl
    exact .pure (.texts names id)
  refine .scope_bind fun scope hscope => ?_
  rw [hscope.kind]
  dsimp only
  split
  · exact Agree.violate.bind (R := fun _ _ => True) fun _ _ _ => hnames
  · exact hnames

/-- Runs agree on properties. -/
theorem agree_property {p : PropertyName} :
    W.Agree σ (property p) (property p) W.ColumnsAlike := by
  rw [property]
  split
  next => exact .pure (.texts _ _)
  next id htarget =>
    refine .catalog_bind (.bind .ofCatalog ?_)
    rintro map _ rfl
    split
    next =>
      refine .bind .ofCatalog ?_
      rintro c _ rfl
      exact .fail
    next =>
      refine .scope_bind fun scope hscope => ?_
      rw [hscope.kind]
      exact .pure (.texts _ _)

/-! ## Expressions on values -/

/-- Runs agree on arithmetic. -/
theorem agree_arithmetic {op : ArithmeticOperator} {parenthesized : Bool} (hl : W.Lowers σ lhs)
    (hr : W.Lowers σ rhs) :
    W.Agree σ (arithmetic lhs.operand op rhs.operand parenthesized)
      (arithmetic (W.image lhs) op (W.image rhs) parenthesized) W.ColumnsAlike := by
  refine (agree_lowerAligned hl hr).bind fun p q hpq => .pure ?_
  refine hpq.1.zipWith hpq.2 fun f g f' g' hfg hfg' => ?_
  exact ((hfg.append (.refl _)).append hfg').parenthesizedIf parenthesized

/-- Runs agree on signs. -/
theorem agree_sign {op : SignOperator} (h : W.Lowers σ e) :
    W.Agree σ (sign op e.operand) (sign op (W.image e)) W.ColumnsAlike :=
  h.lower.bind fun _ _ hfs => .pure (hfs.map fun _ _ hfg => .append (.refl _) hfg)

/-- Runs agree on branches. -/
theorem agree_caseBranch {branch : CaseBranch Exp} (h : ∀ e ∈ branch.exps, W.Lowers σ e) :
    W.Agree σ (caseBranch (branch.map Exp.operand)) (caseBranch (branch.map W.image))
      W.FragmentsAlike := by
  have hcondition := h branch.condition (by simp [CaseBranch.exps])
  have hvalue := h branch.value (by simp [CaseBranch.exps])
  refine hcondition.single.bind fun c c' hc => hvalue.single.bind fun v v' hv => .pure ?_
  exact (((Fillings.FragmentsAlike.refl _).append hc).append (.refl _)).append hv

/-- Runs agree on cases. -/
theorem agree_case {branches : List (CaseBranch Exp)} {otherwise : Option Exp}
    (hbranches : ∀ e ∈ branches.flatMap (·.exps), W.Lowers σ e)
    (hotherwise : ∀ e ∈ otherwise.toList, W.Lowers σ e) :
    W.Agree σ (case (branches.map (.map Exp.operand)) (otherwise.map Exp.operand))
      (case (branches.map (.map W.image)) (otherwise.map W.image)) W.ColumnsAlike := by
  refine (Agree.mapM fun b hb => agree_caseBranch fun e he =>
    hbranches e (List.mem_flatMap.2 ⟨b, hb, he⟩)).bind fun fs gs hfs => ?_
  refine (agree_single? hotherwise).bind fun o o' ho => .pure (.singleton ?_)
  have hstart : W.FragmentsAlike ("CASE" ++ Fragment.join "" fs) ("CASE" ++ Fragment.join "" gs) :=
    .append (.refl _) (.join "" hfs)
  refine (hstart.append ?_).append (.refl _)
  cases ho with
  | none => exact .refl _
  | some hfg => exact .append (.refl _) hfg

/-- Runs agree on inline conditions. -/
theorem agree_iif {condition consequent alternative : Exp} (hc : W.Lowers σ condition)
    (ht : W.Lowers σ consequent) (he : W.Lowers σ alternative) :
    W.Agree σ (iif condition.operand consequent.operand alternative.operand)
      (iif (W.image condition) (W.image consequent) (W.image alternative)) W.ColumnsAlike := by
  refine hc.single.bind fun c c' hc => ht.single.bind fun t t' ht => he.single.bind fun e e' he => ?_
  refine .pure (.singleton ?_)
  have hfirst : W.FragmentsAlike ("IIF(" ++ c ++ ",") ("IIF(" ++ c' ++ ",") :=
    .append (.append (.refl _) hc) (.refl _)
  exact (((hfirst.append ht).append (.refl _)).append he).append (.refl _)

/-- Runs agree on lists of values. -/
theorem agree_list {values : List Exp} (h : ∀ e ∈ values, W.Lowers σ e) :
    W.Agree σ (list (values.map Exp.operand)) (list (values.map W.image)) W.ColumnsAlike := by
  refine (Agree.mapM fun e he => (h e he).single).bind fun fs gs hfs => .pure (.singleton ?_)
  exact (Fillings.FragmentsAlike.join "," hfs).parenthesized

/-! ## Casts -/

theorem fragmentsAlike_castColumn {f g : Fragment} (h : W.FragmentsAlike f g)
    (type : PrimitiveType) : W.FragmentsAlike (castColumn f type) (castColumn g type) := by
  cases type <;> exact .append (.append (.refl _) h) (.refl _)

/-- Runs agree on conversions: the type of an operand is the same on both sides. -/
theorem agree_cast {target : ValueType} (h : W.Lowers σ e) :
    W.Agree σ (cast e.operand target) (cast (W.image e) target) W.ColumnsAlike := by
  have hnull : (W.image e).exp.isNull = e.operand.exp.isNull := Exp.isNull_mapTexts ..
  have hparens : (W.image e).exp.isParenthesized = e.operand.exp.isParenthesized :=
    Exp.isParenthesized_mapTexts ..
  have htype : (W.image e).exp.type = e.operand.exp.type := Exp.type_mapTexts ..
  rw [Lowering.cast, Lowering.cast, hnull, hparens, htype]
  split
  · exact .pure (Fillings.columnsAlike_nullColumns ..)
  split
  · exact .reject
  next type _ =>
    refine h.lower.bind fun fs gs hfs => ?_
    refine .guard (by rw [hfs.length_eq]) (by rw [hfs.length_eq]) ?_
    split
    · exact .pure hfs
    · exact .pure (hfs.map fun _ _ hfg => fragmentsAlike_castColumn hfg type)

/-! ## Navigation values -/

/-- Runs agree on the relationship class of a property. -/
theorem agree_declaredRelationship {p : PropertyName} :
    W.Agree σ (declaredRelationship p) (declaredRelationship p) Eq := by
  refine .catalog_bind ?_
  split
  · exact .pure rfl
  · exact .reject

/-- Numbers are no texts, so both runs check the same one. -/
theorem agree_checkPositive (e : Exp) {role : String} :
    W.Agree σ (checkPositive e.operand.exp role) (checkPositive (W.image e).exp role)
      fun _ _ => True := by
  have hpositive : (W.image e).exp.isNonPositive = e.operand.exp.isNonPositive :=
    Exp.isNonPositive_mapTexts ..
  rw [checkPositive, checkPositive, hpositive]
  split
  · exact .reject
  · exact .pure trivial

/-- The rule for a step that is only taken if the expression is a property. -/
theorem Agree.ofProperty {α β : Type} {R : α → β → Prop} {x y : Lowering α} {x' y' : Lowering β}
    (e : Exp) (h : W.Agree σ x x' R) (hother : W.Agree σ y y' R) :
    W.Agree σ
      (match e.operand.exp with
        | .property _ => x
        | _ => y)
      (match (W.image e).exp with
        | .property _ => x'
        | _ => y') R := by
  have himage : (W.image e).exp = e.mapTexts W.rename := rfl
  rw [himage]
  cases e <;> rw [Exp.mapTexts] <;> assumption

/-- Runs agree on navigation values. -/
theorem agree_navigation {value : NavigationValue Exp} (hid : W.Lowers σ value.id)
    (hrelationship : ∀ e ∈ value.relationship.toList, W.Lowers σ e) :
    W.Agree σ (navigation (value.map Exp.operand)) (navigation (value.map W.image))
      W.ColumnsAlike := by
  obtain ⟨p, id, relationship, aliasName⟩ := value
  have hcolumns (declared : ClassId) : W.Agree σ
      (do
        let id ← id.operand.single "Navigation id"
        let relationship ← Operand.single? (relationship.map Exp.operand)
          "Navigation relationship class id"
        return [id, relationship.getD declared.text])
      (do
        let id ← (W.image id).single "Navigation id"
        let relationship ← Operand.single? (relationship.map W.image)
          "Navigation relationship class id"
        return [id, relationship.getD declared.text]) W.ColumnsAlike := by
    refine hid.single.bind fun i i' hi => (agree_single? hrelationship).bind fun r r' hr => ?_
    refine .pure (.cons hi (.cons ?_ .nil))
    cases hr with
    | none => exact .refl (.ofText declared.text)
    | some hfg => exact hfg
  refine agree_declaredRelationship.bind fun declared _ hdeclared => ?_
  subst hdeclared
  refine (agree_checkPositive id).bind fun _ _ _ => ?_
  cases relationship with
  | none =>
    refine .ofProperty id (.scope_bind fun scope hscope => ?_) (hcolumns _)
    exact .guard (by rw [hscope.hasFrom]) rfl (hcolumns _)
  | some e =>
    refine (agree_checkPositive e).bind fun _ _ _ => ?_
    refine .ofProperty id (.scope_bind fun scope hscope => ?_) (hcolumns _)
    exact .guard (by rw [hscope.hasFrom]) rfl (hcolumns _)

theorem columnsAlike_numberedColumns {aliasName : String} {fs gs : Columns}
    (h : W.ColumnsAlike fs gs) :
    W.ColumnsAlike (numberedColumns aliasName fs) (numberedColumns aliasName gs) := by
  rw [numberedColumns, numberedColumns, Fillings.ColumnsAlike, List.forall₂_map_left_iff,
    List.forall₂_map_right_iff]
  refine (h.zipIdx 0).imp fun p q hpq => ?_
  obtain ⟨f, i⟩ := p
  obtain ⟨g, j⟩ := q
  obtain ⟨hfg, rfl⟩ := hpq
  exact hfg.append (.refl _)

end TwoRuns

end EntitySql
