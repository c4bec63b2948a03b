import EntitySql.Proofs.Lowering.Form
import EntitySql.Proofs.Sql.Columnwise
import EntitySql.Sample

/-!
# The width of an expression

How many columns an expression has can be read off it and the catalog (`Exp.width`): the state in
which it is lowered, the options and the functions have no say. So operands that do not fit together
are found out wherever they stand (`Exp.width_of_lower`).
-/

namespace EntitySql

open Lowering
open Sql (Columns Fragment)

/-! ## Widths -/

/-- The number of columns of a property. -/
def PropertyName.width (catalog : Catalog) (p : PropertyName) : Nat :=
  match p.target with
  | .derived columns => columns.length
  | .ofClass id =>
    match catalog.classMap id with
    | .ok map => (map.property p.access).length
    | .error _ => 0

/-- The width of a value that meets another: a bare `NULL` takes the width of the other, unless that
is a bare `NULL` too. -/
def widened (lhs : Exp) (lhsWidth : Nat) (rhs : Exp) (rhsWidth : Nat) : Nat :=
  if lhs.isNull && !rhs.isNull then rhsWidth else lhsWidth

namespace Exp

/-- The number of columns of an expression. -/
def width (catalog : Catalog) : Exp → Nat
  | .literal ⟨.null, type, _⟩ => type.columnCount
  | .parameter p => p.type.columnCount
  | .property p => p.width catalog
  | .cast _ target => target.columnCount
  | .sign _ operand _ => operand.width catalog
  | .arithmetic lhs _ rhs _ _ => widened lhs (lhs.width catalog) rhs (rhs.width catalog)
  | .navigation _ => 2
  | .literal _ | .enumerator .. | .call _ | .case .. | .iif .. | .extractProperty ..
  | .extractInstance _ | .subquery _ | .list _ | .typeList _ | .window .. | .boolean .. | .not ..
  | .between .. | .like .. | .quantified .. | .subqueryTest .. => 1

/-- The number of columns of an expression that meets another. -/
def widthBeside (catalog : Catalog) (e other : Exp) : Nat :=
  widened e (e.width catalog) other (other.width catalog)

/-- The expression cannot be lowered, whatever the state is. -/
def NeverLowers (env : Environment) (e : Exp) : Prop :=
  ∀ s columns, (e.lower env s).1 ≠ .ok columns

end Exp

/-! ## Results in any state -/

/-- Whatever the state is: if the step goes well, `R` holds of the result. -/
def Returns {α : Type} (env : Environment) (step : Lowering α) (R : α → Prop) : Prop :=
  ∀ s a s', step env s = (.ok a, s') → R a

namespace Returns

variable {env : Environment} {α β : Type} {R : α → Prop} {Q : β → Prop} {step : Lowering α}
  {next : α → Lowering β}

theorem pure {a : α} (h : R a) : Returns env (Pure.pure a) R := by
  intro s b s' hrun
  obtain ⟨rfl, -⟩ := eq_of_pure hrun
  exact h

/-- What is known of a result may be weakened. -/
theorem imp {R' : α → Prop} (h : Returns env step R) (himp : ∀ a, R a → R' a) :
    Returns env step R' :=
  fun s a s' hrun => himp a (h s a s' hrun)

/-- The rule for one step after another. -/
theorem bind (h : Returns env step R) (hnext : ∀ a, R a → Returns env (next a) Q) :
    Returns env (step >>= next) Q := by
  intro s b s' hrun
  obtain ⟨a, middle, hstep, hrest⟩ := bind_eq_ok.1 hrun
  exact hnext a (h s a middle hstep) middle b s' hrest

/-- What holds after every result of a step holds after the step. -/
theorem after (hnext : ∀ a, Returns env (next a) Q) : Returns env (step >>= next) Q :=
  bind (R := fun _ => True) (fun _ _ _ _ => trivial) fun a _ => hnext a

theorem ite {c : Prop} [Decidable c] {step' : Lowering α} (h : c → Returns env step R)
    (h' : ¬c → Returns env step' R) : Returns env (if c then step else step') R := by
  split
  next hc => exact h hc
  next hc => exact h' hc

/-- A failing step returns nothing. -/
theorem fail {error : LoweringError} : Returns env (Lowering.fail error) R :=
  fun _ _ _ hrun => nomatch (Prod.mk.inj hrun).1

theorem violate {violation : Violation} : Returns env (Lowering.violate violation) R :=
  fail

theorem reject {fault : Fault} : Returns env (Lowering.reject fault) R :=
  fun _ _ _ hrun => nomatch (Prod.mk.inj hrun).1

theorem violate_bind {violation : Violation} :
    Returns env (Lowering.violate violation >>= next) Q :=
  violate.bind fun _ => False.elim

/-- The rule for steps that are only taken if the statement is not at fault. -/
theorem guard {c : Prop} [Decidable c] {fault : Fault} {next : Unit → Lowering α}
    (h : ¬c → Returns env (next ()) R) :
    Returns env (if c then Lowering.reject fault >>= next else next ()) R :=
  ite (fun _ => reject.bind fun _ => False.elim) h

/-- The rule for an answer of the catalog that may be an error. -/
theorem ofCatalog_bind {answer : Except CatalogError α}
    (h : ∀ a, answer = .ok a → Returns env (next a) Q) :
    Returns env (Lowering.ofCatalog answer >>= next) Q := by
  cases answer with
  | error error => exact fail.bind fun _ => False.elim
  | ok a => exact h a rfl

/-- The rule for an answer that may break a rule. -/
theorem ofRule {answer : Except Violation α} (h : ∀ a, answer = .ok a → R a) :
    Returns env (Lowering.ofRule answer) R := by
  cases answer with
  | error error => exact fail
  | ok a => exact pure (h a rfl)

theorem catalog_bind {next : Catalog → Lowering α} (h : Returns env (next env.catalog) R) :
    Returns env (Lowering.catalog >>= next) R :=
  h

/-- The rule for a step one level deeper. -/
theorem nested (h : Returns env step R) : Returns env (Lowering.nested step) R := by
  intro s a s' hrun
  rw [Lowering.nested] at hrun
  split at hrun
  · cases (Prod.mk.inj hrun).1
  · obtain ⟨ha, -⟩ := Prod.mk.inj hrun
    exact h _ a _ (Prod.ext ha rfl)

end Returns

/-- In every state in which the step goes well, it gives this many columns. -/
def HasWidth (env : Environment) (step : Lowering Columns) (width : Nat) : Prop :=
  Returns env step (·.length = width)

namespace HasWidth

variable {env : Environment} {step : Lowering Columns} {m n : Nat} {α : Type}

theorem pure {columns : Columns} (h : columns.length = n) : HasWidth env (Pure.pure columns) n :=
  Returns.pure h

/-- The width is that of the last step. -/
theorem after {step : Lowering α} {next : α → Lowering Columns}
    (h : ∀ a, HasWidth env (next a) n) : HasWidth env (step >>= next) n :=
  Returns.after h

theorem guard {c : Prop} [Decidable c] {fault : Fault} {next : Unit → Lowering Columns}
    (h : ¬c → HasWidth env (next ()) n) :
    HasWidth env (if c then Lowering.reject fault >>= next else next ()) n :=
  Returns.guard h

/-- An operand has one column only if its width is one. -/
theorem single {o : Operand} (h : HasWidth env o.body n) (role : String) :
    Returns env (o.single role) fun _ => n = 1 := by
  refine (Returns.nested h).bind fun columns hcolumns => ?_
  rcases columns with _ | ⟨column, _ | ⟨second, rest⟩⟩
  · exact .violate
  · exact .pure hcolumns.symm
  · exact .reject

end HasWidth

variable {env : Environment} {m n : Nat} {o lhs rhs : Operand}

/-! ## Operands that meet -/

/-- Aligned columns have the widths of their operands, with `NULL` widened. -/
theorem lengths_of_align {l r : Exp} {ls rs : Columns} {pair : Columns × Columns}
    (h : align l ls r rs = .ok pair) :
    pair.1.length = widened l ls.length r rs.length
      ∧ pair.2.length = widened r rs.length l ls.length := by
  unfold align at h
  extract_lets lhs rhs at h
  split at h
  next =>
    obtain rfl := Except.ok.inj h
    constructor
    · simp only [lhs, widened, apply_ite List.length, nullColumns, List.length_replicate]
    · simp only [rhs, widened, apply_ite List.length, nullColumns, List.length_replicate]
  next => cases h

/-- Aligned operands have the width of each beside the other. -/
theorem lowerAligned_widths (hl : HasWidth env lhs.body m) (hr : HasWidth env rhs.body n) :
    Returns env (lhs.lowerAligned rhs) fun pair =>
      pair.1.length = widened lhs.exp m rhs.exp n ∧ pair.2.length = widened lhs.exp m rhs.exp n
        ∧ widened lhs.exp m rhs.exp n = widened rhs.exp n lhs.exp m := by
  refine (Returns.nested hl).bind fun ls hls => (Returns.nested hr).bind fun rs hrs =>
    .ofRule fun pair hpair => ?_
  obtain ⟨hlength, -, -⟩ := eq_of_align hpair
  obtain ⟨hl, hr⟩ := lengths_of_align hpair
  rw [hls, hrs] at hl hr
  exact ⟨hl, hlength ▸ hl, hl.symm.trans (hlength.trans hr)⟩

/-! ## Values -/

/-- A literal has one column, unless it is `NULL`. -/
theorem hasWidth_literal (l : Literal) :
    HasWidth env (Lowering.literal l) ((Exp.literal l).width env.catalog) := by
  obtain ⟨value, type, parenthesized⟩ := l
  cases value with
  | null => exact .pure List.length_replicate
  | boolean | integer | double | string | date | timestamp => exact .after fun _ => .pure rfl

/-- A parameter has as many names as its type has columns, also if it has been named before. -/
theorem hasWidth_parameter (p : Parameter) :
    HasWidth env (Lowering.parameter p) p.type.columnCount := by
  have hnames : Returns env (bindParameter p) (·.length = p.type.columnCount) := by
    intro s names s' hrun
    rw [bindParameter] at hrun
    split at hrun
    next bound parameters hbind =>
      obtain rfl := Except.ok.inj (Prod.mk.inj hrun).1
      rcases ParameterMap.bind_eq_ok hbind with ⟨-, hwidth, -⟩ | ⟨-, hfresh⟩
      · exact hwidth
      · exact (Prod.mk.inj hfresh).1 ▸ p.length_nativeNames
    next => cases (Prod.mk.inj hrun).1
  have hcolumns : HasWidth env (do return (← bindParameter p).map Fragment.ofText)
      p.type.columnCount :=
    hnames.bind fun names h => .pure (by rw [List.length_map, h])
  exact .after fun scope => .ite (fun _ => .violate_bind) fun _ => hcolumns

/-- A property has as many columns as its class map or its subquery says. -/
theorem hasWidth_property (p : PropertyName) :
    HasWidth env (Lowering.property p) (p.width env.catalog) := by
  obtain ⟨aliasName, path, target, type⟩ := p
  cases target with
  | derived columns => exact .pure (List.length_map _)
  | ofClass id =>
    refine .catalog_bind (.ofCatalog_bind fun map hmap => ?_)
    simp only [PropertyName.width, hmap]
    split
    next => exact .ofCatalog_bind fun _ _ => .fail
    next => exact .after fun scope => .pure (List.length_map _)

/-- A cast has the width of its target: other widths are rejected. -/
theorem hasWidth_cast (o : Operand) (target : ValueType) :
    HasWidth env (Lowering.cast o target) target.columnCount := by
  unfold Lowering.cast
  refine .ite (fun _ => .pure List.length_replicate) fun _ => ?_
  split
  next => exact .reject
  next type =>
    refine HasWidth.after fun columns => .guard fun hwidth => ?_
    have hlength : columns.length = target.columnCount := not_not.1 hwidth
    exact Returns.ite (fun _ => .pure hlength) fun _ => .pure ((List.length_map _).trans hlength)

/-- A sign keeps the width of its operand. -/
theorem hasWidth_sign (op : SignOperator) (h : HasWidth env o.body n) :
    HasWidth env (Lowering.sign op o) n :=
  (Returns.nested h).bind fun columns hcolumns => .pure (by rw [List.length_map, hcolumns])

/-- Arithmetic pairs all columns of its operands. -/
theorem arithmetic_widths (lhs : Operand) (op : ArithmeticOperator) (rhs : Operand)
    (parenthesized : Bool) (hl : HasWidth env lhs.body m) (hr : HasWidth env rhs.body n) :
    Returns env (Lowering.arithmetic lhs op rhs parenthesized) fun columns =>
      columns.length = widened lhs.exp m rhs.exp n
        ∧ widened lhs.exp m rhs.exp n = widened rhs.exp n lhs.exp m := by
  refine (lowerAligned_widths hl hr).bind fun pair hpair => ?_
  obtain ⟨hfirst, hsecond, hfit⟩ := hpair
  exact .pure ⟨by rw [List.length_zipWith, hfirst, hsecond, Nat.min_self], hfit⟩

/-- A navigation value has two columns. -/
theorem hasWidth_navigation (value : NavigationValue Operand) :
    HasWidth env (Lowering.navigation value) 2 := by
  have hcolumns (declared : ClassId) : HasWidth env (do
      let id ← value.id.single "Navigation id"
      let relationship ← Operand.single? value.relationship "Navigation relationship class id"
      return [id, relationship.getD declared.text]) 2 :=
    .after fun _ => .after fun _ => .pure rfl
  refine .after fun declared => .after fun _ => ?_
  dsimp only
  split
  · refine .after fun _ => ?_
    split
    · exact .after fun scope => .guard fun _ => hcolumns declared
    · exact hcolumns declared
  · split
    · exact .after fun scope => .guard fun _ => hcolumns declared
    · exact hcolumns declared

/-! ## Conditions -/

/-- The class of only one value at a time is tested. -/
theorem typeTest_widths (op : BooleanOperator) (entries : List TypeEntry) (parenthesized : Bool)
    (h : HasWidth env lhs.body n) :
    Returns env (typeTest lhs op entries parenthesized) fun columns =>
      columns.length = 1 ∧ n = 1 := by
  cases op with
  | is | isNot =>
    refine (h.single _).bind fun f hone => .catalog_bind ?_
    split
    · exact .violate
    · exact .pure ⟨rfl, hone⟩
  | comparison | «in» | notIn | «match» | notMatch | and | or => exact .violate_bind

theorem hasWidth_singleOperands (lhsRole rhsRole : String) (op : BooleanOperator)
    (parenthesized : Bool) :
    HasWidth env (singleOperands lhs lhsRole op rhs rhsRole parenthesized) 1 :=
  .after fun _ => .after fun _ => .pure rfl

/-- A comparison has one column, and is made only of operands that fit together. -/
theorem boolean_widths (lhs : Operand) (op : BooleanOperator) (rhs : Operand) (parenthesized : Bool)
    (hl : HasWidth env lhs.body m) (hr : HasWidth env rhs.body n)
    (hlist : ∀ entries, rhs.exp = .typeList entries → n = 1) :
    Returns env (Lowering.boolean lhs op rhs parenthesized) fun columns =>
      columns.length = 1 ∧ (op.comparesColumns = true →
        widened lhs.exp m rhs.exp n = widened rhs.exp n lhs.exp m) := by
  rw [boolean.eq_def]
  split
  next entries hentries =>
    refine (typeTest_widths op entries parenthesized hl).imp fun columns hcolumns => ?_
    refine ⟨hcolumns.1, fun _ => ?_⟩
    rw [hcolumns.2, hlist entries hentries, widened, widened, ite_self, ite_self]
  next =>
    cases op with
    | and | or | «in» | notIn | «match» | notMatch =>
      exact Returns.imp (hasWidth_singleOperands _ _ _ parenthesized) fun columns hone =>
        ⟨hone, fun h => Bool.noConfusion h⟩
    | comparison | is | isNot =>
      exact (lowerAligned_widths hl hr).bind fun pair hpair => .pure ⟨rfl, fun _ => hpair.2.2⟩

/-- A range test is one column, whatever the width of its operand. -/
theorem hasWidth_between (lower upper : Operand) (negated : Bool) :
    HasWidth env (Lowering.between o lower upper negated) 1 :=
  .after fun _ => .after fun _ => .after fun _ => .guard fun _ => .pure rfl

theorem hasWidth_subqueryTest (test : SubqueryTest) (select : Lowering Unit) :
    HasWidth env (Lowering.subqueryTest test select) 1 := by
  cases test with
  | unique =>
    rw [Lowering.subqueryTest]
    exact .reject
  | «exists» => exact .after fun _ => .pure rfl

/-- A comparison with the rows of a subquery is one column. -/
theorem hasWidth_quantified (op : ComparisonOperator) (quantifier : Quantifier) (isCompound : Bool)
    (select : Lowering Unit) :
    HasWidth env (Lowering.quantified o op quantifier isCompound select) 1 := by
  unfold Lowering.quantified
  refine .guard fun _ => ?_
  refine .after fun operand => .after fun anchor => .after fun subquery => ?_
  refine .after fun pending => .ite (fun _ => .violate_bind) fun _ => ?_
  exact HasWidth.after fun captured => .after fun condition => .after fun _ => .pure rfl

/-! ## Expressions -/

namespace Exp

theorem width_of_eq_typeList {catalog : Catalog} {e : Exp} {entries : List TypeEntry}
    (h : e = .typeList entries) : e.width catalog = 1 := by
  rw [h, width]

/-- An expression has its width wherever it is lowered. -/
theorem hasWidth_body (env : Environment) (e : Exp) : HasWidth env e.body (e.width env.catalog) := by
  cases e with
  | literal l => exact hasWidth_literal l
  | parameter p => exact hasWidth_parameter p
  | property p => exact hasWidth_property p
  | cast operand target => exact hasWidth_cast _ target
  | sign op operand type => exact hasWidth_sign op (hasWidth_body env operand)
  | arithmetic lhs op rhs type parenthesized =>
    exact (arithmetic_widths _ op _ parenthesized (hasWidth_body env lhs) (hasWidth_body env rhs)).imp
      fun columns h => h.1
  | navigation value => exact hasWidth_navigation _
  | boolean lhs op rhs parenthesized =>
    exact (boolean_widths _ op _ parenthesized (hasWidth_body env lhs) (hasWidth_body env rhs)
      fun entries => width_of_eq_typeList).imp fun columns h => h.1
  | between operand lower upper negated => exact hasWidth_between _ _ negated
  | quantified operand op quantifier select => exact hasWidth_quantified op quantifier _ _
  | subqueryTest test select => exact hasWidth_subqueryTest test _
  | extractProperty | extractInstance => exact .pure rfl
  | typeList => exact .violate
  | enumerator | call | subquery | list | not => exact .after fun _ => .pure rfl
  | case => exact .after fun _ => .after fun _ => .pure rfl
  | iif | like => exact .after fun _ => .after fun _ => .after fun _ => .pure rfl
  | window =>
    refine .after fun _ => .after fun _ => ?_
    exact .after fun _ => .after fun _ => .after fun _ => .pure rfl
termination_by sizeOf e

/-- A step whose result would show something false never goes well. -/
theorem neverLowers {e : Exp} {P : Prop} (h : Returns env e.body fun _ => P)
    (hP : ¬P) : e.NeverLowers env := by
  intro s columns hlower
  exact hP (h.nested s columns (e.lower env s).2 (Prod.ext hlower rfl))

/-- An expression that is lowered has as many columns as its width says, in any state. Comparisons
and arithmetic on operands that differ in width, with a bare `NULL` widened, are never lowered. -/
theorem width_of_lower (env : Environment) :
    (∀ (e : Exp) (s s' : State) (columns : Columns),
      e.lower env s = (.ok columns, s') → columns.length = e.width env.catalog)
    ∧ ∀ lhs rhs : Exp, lhs.widthBeside env.catalog rhs ≠ rhs.widthBeside env.catalog lhs →
      (∀ op parenthesized, op.comparesColumns = true →
        (Exp.boolean lhs op rhs parenthesized).NeverLowers env)
      ∧ ∀ op type parenthesized, (Exp.arithmetic lhs op rhs type parenthesized).NeverLowers env := by
  refine ⟨fun e s s' columns hlower => ?_, fun lhs rhs hwidths => ⟨?_, ?_⟩⟩
  · exact Returns.nested (e.hasWidth_body env) s columns s' hlower
  · intro op parenthesized hop
    have hfit := boolean_widths lhs.operand op rhs.operand parenthesized (lhs.hasWidth_body env)
      (rhs.hasWidth_body env) fun entries => width_of_eq_typeList
    exact neverLowers (hfit.imp fun columns h => h.2 hop) hwidths
  · intro op type parenthesized
    have hfit := arithmetic_widths lhs.operand op rhs.operand parenthesized (lhs.hasWidth_body env)
      (rhs.hasWidth_body env)
    exact neverLowers (hfit.imp fun columns h => h.2) hwidths

end Exp

namespace Sample

/-- A property of the widgets. -/
def widgetProperty (name : String) (type : ValueType) : Exp :=
  .property ⟨"w", [name], .ofClass 20, type⟩

/-- A point in space with an unknown vector added. -/
def shiftedPoint : Exp :=
  .arithmetic (widgetProperty "P" (.primitive .point3d)) .plus (.literal (.ofValue .null))
    (.primitive .point3d) false

/-- The unknown vector has the width of the point; a point in space is not compared with one in the
plane. -/
theorem width_shiftedPoint :
    (∃ columns s', shiftedPoint.lower (.of catalog .default .builtin) .initial = (.ok columns, s')
      ∧ columns.length = 3)
    ∧ (Exp.boolean shiftedPoint (.comparison .eq)
        (widgetProperty "Position" (.primitive .point2d)) false).NeverLowers
        (.of catalog .default .builtin) := by
  obtain ⟨hlength, hnever⟩ := Exp.width_of_lower (.of catalog .default .builtin)
  constructor
  · obtain ⟨columns, hok⟩ := Except.exists_eq_ok
      (x := (shiftedPoint.lower (.of catalog .default .builtin) .initial).1) (by decide +kernel)
    have hlower : shiftedPoint.lower (.of catalog .default .builtin) .initial
        = (.ok columns, _) := Prod.ext hok rfl
    have hwidth : shiftedPoint.width catalog = 3 := by decide +kernel
    exact ⟨columns, _, hlower, (hlength _ _ _ _ hlower).trans hwidth⟩
  · exact (hnever _ _ (by decide +kernel)).1 (.comparison .eq) false rfl

end Sample

end EntitySql
