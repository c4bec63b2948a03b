import EntitySql.Proofs.Lists
import EntitySql.Proofs.Lowering.Exp
import EntitySql.Proofs.Sql.Fits
import EntitySql.Proofs.Storage.ViewText
import EntitySql.Proofs.Suits

/-!
# Values fit

What is lowered fits wherever it may stand: its parentheses and quotes close, no comment begins, or
whatever else is promised. This follows from the forms of results alone. `Setting.Fitting` says that
the results for the parts fit, and there is one lemma for each kind of value.

A minus sign is written right in front of its operand, and two of them in a row begin a comment. So
a column `FitsAs` a value that leads with a minus sign or not.
-/

namespace EntitySql

open Lowering
open Sql (AnchorTable CapturedSelect Columns Fits Fragment Promise bracketed qualified quoted
  textSymbols)

/-! ## Columns -/

namespace Sql

variable {t : AnchorTable} {p : Promise} {negative : Bool} {f g : Fragment}

/-- How a text starts does not depend on what is appended. -/
theorem Promise.Leads.left (h : p.Leads f.symbols) : p.Leads (f ++ g).symbols := by
  rw [Fragment.symbols_append]
  exact h.append

/-- The fragment fits wherever a value fits, also behind a minus sign unless it is negative. -/
structure FitsAs (t : AnchorTable) (p : Promise) (negative : Bool) (f : Fragment) : Prop where
  fits : Fits t p 0 0 f
  leads : negative = false → p.Leads f.symbols

namespace FitsAs

/-- A text fits if it is in order by itself. -/
theorem ofText {x : String} (h : p.Admits 0 0 (textSymbols x)) (hleads : p.Leads (textSymbols x)) :
    FitsAs t p negative (Fragment.ofText x) :=
  ⟨.ofText h, fun _ => (Fragment.symbols_ofText x).symm ▸ hleads⟩

/-- A text without names fits under any promise. -/
theorem const (h : f.Fixed 0 0) (hleads : leadsWell f.symbols = true) : FitsAs t p negative f :=
  ⟨.const h, fun _ => Promise.leads_of_leadsWell hleads⟩

/-- Only the first part of a text can lead with a minus sign. -/
theorem append (hf : FitsAs t p negative f) (hg : Fits t p 0 0 g) : FitsAs t p negative (f ++ g) :=
  ⟨hf.fits.append hg, fun h => (hf.leads h).left⟩

/-- Parentheses separate a minus sign from what is in front of it. -/
theorem parenthesized (hf : Fits t p 0 0 f) : FitsAs t p negative f.parenthesized :=
  ⟨hf.parenthesized, fun _ => (Promise.leads_of_leadsWell (by decide)).left.left⟩

/-- What a value leads with matters only without parentheses around it. -/
theorem parenthesizedIf (hf : FitsAs t p negative f) (condition : Bool) :
    FitsAs t p (!condition && negative) (f.parenthesizedIf condition) := by
  cases condition with
  | true => exact parenthesized hf.fits
  | false => exact hf

end FitsAs

end Sql

/-- The columns fit, as those of the expression. -/
def Exp.Fit (t : AnchorTable) (p : Promise) (e : Exp) (columns : Columns) : Prop :=
  ∀ f ∈ columns, Sql.FitsAs t p e.leadsWithMinus f

/-- Both parts of a call fit, and the first one also behind a minus sign. -/
structure Lowering.LoweredCall.Fit (t : AnchorTable) (p : Promise) (c : LoweredCall) : Prop where
  call : Sql.FitsAs t p false c.call
  suffix : Fits t p 0 0 c.suffix

/-- The parts of a select fit that are put into an anchor. -/
structure Sql.CapturedSelect.Fit (t : AnchorTable) (p : Promise) (captured : CapturedSelect) :
    Prop where
  columns : ∀ f ∈ captured.columns, Fits t p 0 0 f
  condition : ∀ f ∈ captured.condition, Fits t p 0 0 f

/-- All that is lowered fits, if its names suit the promise. A select fits once the anchor that
takes the place of its condition is settled. -/
structure Setting.Fitting (S : Setting) (p : Promise) (R : Results) : Prop where
  env : S.env.Suits p
  orderly : p.given → S.orderly
  exp : ∀ {e columns}, R.exp e columns → (Node.exp e).Suits p → e.Fit S.final p columns
  source : ∀ {source f}, R.source source f → (Node.source source).Suits p → Fits S.final p 0 0 f
  core : ∀ {c anchor captured f}, R.core c anchor captured f → (Node.core c).Suits p →
    captured.Fit S.final p
      ∧ ((∀ id ∈ anchor, S.final.Settled p id) → Fits S.final p 0 0 f ∧ f.Shown)
  select : ∀ {w anchor captured f}, R.select w anchor captured f → (Node.select w).Suits p →
    captured.Fit S.final p
      ∧ ((∀ id ∈ anchor, S.final.Settled p id) → Fits S.final p 0 0 f ∧ (p.given → f.Shown))

namespace Setting.Fitting

variable {S : Setting} {p : Promise} {R : Results} {e : Exp} {columns : Columns} {f : Fragment}

/-- The only column of an operand fits, and leads with a minus sign only if the operand does. -/
theorem single (h : S.Fitting p R) (hf : R.single e f) (hsuits : (Node.exp e).Suits p) :
    Sql.FitsAs S.final p e.leadsWithMinus f :=
  h.exp hf hsuits f (List.mem_singleton_self f)

/-- The only column of an operand fits. -/
theorem single_fits (h : S.Fitting p R) (hf : R.single e f) (hsuits : (Node.exp e).Suits p) :
    Fits S.final p 0 0 f :=
  (h.single hf hsuits).fits

/-- The columns of operands fit. -/
theorem singles (h : S.Fitting p R) {exps : List Exp} {fs : List Fragment}
    (hfs : List.Forall₂ R.single exps fs) (hsuits : ∀ e ∈ exps, (Node.exp e).Suits p) :
    ∀ f ∈ fs, Fits S.final p 0 0 f :=
  forall_of_forall₂ hfs fun e he _ hf => h.single_fits hf (hsuits e he)

/-- The column of an operand that may be missing fits. -/
theorem single? (h : S.Fitting p R) {exp : Option Exp} {last : Option Fragment}
    (hlast : Option.Rel R.single exp last) (hsuits : ∀ e ∈ exp.toList, (Node.exp e).Suits p) :
    ∀ f ∈ last, Fits S.final p 0 0 f := by
  intro f hf
  cases hlast with
  | none => cases hf
  | some hsingle =>
    obtain rfl := Option.some.inj hf
    exact h.single_fits hsingle (hsuits _ (List.mem_singleton_self _))

theorem fit_singleton {negative : Bool} : (∀ g ∈ [f], Sql.FitsAs S.final p negative g)
    ↔ Sql.FitsAs S.final p negative f :=
  List.forall_mem_singleton

/-- What may be missing at the end fits. -/
theorem lastPart {keyword : String} {last : Option Fragment}
    (hkeyword : Fragment.Fixed 0 0 keyword) (h : ∀ f ∈ last, Fits S.final p 0 0 f) :
    Fits S.final p 0 0 (EntitySql.lastPart keyword last) := by
  cases last with
  | none => exact .const (f := "") (by decide)
  | some f => exact .append (.const hkeyword) (h f rfl)

/-- `NULL` fits anywhere, in parentheses or not. -/
theorem nullColumns (parenthesized : Bool) (count : Nat) :
    e.Fit S.final p (EntitySql.nullColumns parenthesized count) := by
  intro f hf
  rw [List.eq_of_mem_replicate hf]
  cases parenthesized <;> exact .const (by decide) (by decide)

/-! ## Constants, parameters and properties -/

/-- Literals fit: texts are quoted, and negative numbers lead with a minus sign. -/
theorem literalValue {value : LiteralValue} (h : ∀ x ∈ value.texts, p.Quotable x) :
    Sql.FitsAs S.final p value.isNegative (Fragment.ofText value.sql) := by
  cases value with
  | null => exact .const (by decide) (by decide)
  | boolean b => cases b <;> exact .const (by decide) (by decide)
  | integer n =>
    refine ⟨.ofText (Promise.admits_toString_int _), fun hn => ?_⟩
    rw [Fragment.symbols_ofText]
    exact Promise.leads_of_leadsWell (Sql.leadsWell_toString_int (not_lt.1 (of_decide_eq_false hn)))
  | double d =>
    refine ⟨.ofText (Promise.admits_doubleText d), fun hd => ?_⟩
    rw [Fragment.symbols_ofText]
    exact Promise.leads_of_leadsWell (Sql.leadsWell_doubleText hd)
  | string text =>
    exact .ofText (Promise.admits_quoted (h text (List.mem_singleton_self text)))
      (Promise.leads_of_leadsWell Sql.leadsWell_quoted)
  | date text | timestamp text =>
    have hquoted := Promise.admits_quoted (a := 1) (h text (List.mem_singleton_self text))
    have hopen : p.Admits 0 1 (textSymbols "JULIANDAY(") := Promise.admits_of_both (by decide)
    refine .ofText ((hopen.text hquoted).text (Promise.admits_of_both (by decide))) ?_
    rw [LiteralValue.sql, Sql.textSymbols_append, Sql.textSymbols_append]
    exact (Promise.leads_of_leadsWell (by decide)).append.append

/-- The database names of a parameter fit if its name may stand as it is. -/
theorem admits_nativeName {key : ParameterKey} (h : p.Bare key.stem) (column : Nat) :
    p.Admits 0 0 (textSymbols (key.nativeName column))
      ∧ p.Leads (textSymbols (key.nativeName column)) := by
  have hname : key.nativeName column
      = ":_ecdb_ecsqlparam_" ++ (key.stem ++ ("_col" ++ toString column)) := by
    unfold ParameterKey.nativeName
    simp only [String.append_assoc]
  have hstart : p.Admits 0 0 (textSymbols ":_ecdb_ecsqlparam_") :=
    Promise.admits_of_both (by decide)
  have hcolumn : p.Admits 0 0 (textSymbols ("_col" ++ toString column)) :=
    Promise.Admits.text (Promise.admits_of_both (by decide)) (Promise.admits_toString_nat column)
  have hfirst : ("_col" ++ toString column).toList
      = '_' :: (['c', 'o', 'l'] ++ (toString column).toList) := by
    rw [String.toList_append, show "_col".toList = ['_', 'c', 'o', 'l'] by decide]
    rfl
  rw [hname]
  refine ⟨hstart.text (Promise.admits_bare_append h hcolumn hfirst (by decide)), ?_⟩
  rw [Sql.textSymbols_append]
  exact (Promise.leads_of_leadsWell (by decide)).append

/-- The name of a parameter in the database is made of one that may stand bare, or of a number. -/
theorem bare_stem {parameter : Parameter} (h : ∀ x ∈ parameter.name.toList, p.Bare x) :
    p.Bare parameter.key.stem := by
  rw [Parameter.key]
  cases hname : parameter.name with
  | some name => exact h name (by simp [hname])
  | none =>
    refine Promise.bare_of_both ⟨?_, Sql.Wordlike.append (by decide) (Sql.wordlike_toString_nat _)⟩
    show Sql.Harmless ("ix" ++ toString parameter.index.toNat).toList
    rw [String.toList_append]
    exact Sql.Harmless.append (by decide) (Sql.harmless_toString_nat _)

/-- The names of parameters fit if they are those that the parameters are bound to. -/
theorem parameter (h : S.Fitting p R) {parameter : Parameter} {names : List String}
    (hnames : S.orderly → names = parameter.nativeNames)
    (hsuits : (Node.exp (.parameter parameter)).Suits p) :
    Exp.Fit S.final p (.parameter parameter) (names.map Fragment.ofText) := by
  have hstem : p.Bare parameter.key.stem := bare_stem hsuits.words
  -- the names are known only where parameters are in order, and so under the promise
  have hadmits (hp : p.given) : ∀ x ∈ names,
      p.Admits 0 0 (textSymbols x) ∧ p.Leads (textSymbols x) := by
    rw [hnames (h.orderly hp), Parameter.nativeNames]
    exact List.forall_mem_map.2 fun column _ => admits_nativeName hstem column
  exact List.forall_mem_map.2 fun x hx =>
    .ofText (fun hp => (hadmits hp x hx).1 hp) fun hp => (hadmits hp x hx).2 hp

/-- The column of a property is a qualified name or a number. -/
theorem propertyColumn {aliasName : String} {kind : StatementKind} {column : MappedColumn}
    {negative : Bool} (halias : p.Bracketable aliasName)
    (hcolumn : ∀ x ∈ column.identifiers, p.Bracketable x) :
    Sql.FitsAs S.final p negative (Lowering.propertyColumn aliasName kind column) := by
  rw [MappedColumn.identifiers] at hcolumn
  rw [Lowering.propertyColumn]
  split
  · exact .ofText (Promise.admits_qualified halias (hcolumn _ (List.mem_cons_self ..)))
      (Promise.leads_of_leadsWell Sql.leadsWell_qualified)
  · split
    next name hsource =>
      rw [hsource] at hcolumn
      exact .ofText (Promise.admits_bracketed (hcolumn name (by simp)))
        (Promise.leads_of_leadsWell Sql.leadsWell_bracketed)
    next id hsource =>
      exact .ofText (Promise.admits_classId id)
        (Promise.leads_of_leadsWell (Sql.leadsWell_classId id))

/-- The columns of a property fit if the names of its class map do. -/
theorem property (h : S.Fitting p R) {property : PropertyName} (hcolumns : property.Form S columns)
    (hnames : ∀ x ∈ property.identifiers, p.Bracketable x) : e.Fit S.final p columns := by
  have halias : p.Bracketable property.aliasName := hnames _ (List.mem_cons_self ..)
  rw [PropertyName.identifiers] at hnames
  cases hcolumns with
  | derived htarget =>
    rw [htarget] at hnames
    refine List.forall_mem_map.2 fun x hx => ?_
    exact .ofText (Promise.admits_qualified halias (hnames x (List.mem_cons_of_mem _ hx)))
      (Promise.leads_of_leadsWell Sql.leadsWell_qualified)
  | ofClass htarget hmap kind =>
    have hmem := Catalog.mem_maps_of_classMap? (Catalog.classMap_eq_ok.1 hmap)
    refine List.forall_mem_map.2 fun column hcolumn => propertyColumn halias fun x hx => ?_
    exact h.env.catalog x
      (Catalog.mem_identifiers_of_column hmem (List.mem_of_mem_filter hcolumn) hx)

/-! ## Expressions on values -/

/-- Aligned columns fit if the columns did that were there. -/
theorem align {lhs rhs : Exp} {ls rs : Columns} {columns : Columns × Columns}
    (halign : EntitySql.align lhs ls rhs rs = .ok columns) (hl : lhs.Fit S.final p ls)
    (hr : rhs.Fit S.final p rs) : lhs.Fit S.final p columns.1 ∧ rhs.Fit S.final p columns.2 := by
  obtain ⟨h1, h2⟩ := columns_of_align halign
  constructor
  · rcases h1 with h1 | h1 <;> rw [h1]
    · exact hl
    · exact nullColumns _ _
  · rcases h2 with h2 | h2 <;> rw [h2]
    · exact hr
    · exact nullColumns _ _

/-- Aligned operands fit. -/
theorem aligned (h : S.Fitting p R) {lhs rhs : Exp} {columns : Columns × Columns}
    (halign : R.aligned lhs rhs columns) (hl : (Node.exp lhs).Suits p)
    (hr : (Node.exp rhs).Suits p) :
    lhs.Fit S.final p columns.1 ∧ rhs.Fit S.final p columns.2 := by
  obtain ⟨ls, rs, hls, hrs, halign⟩ := halign
  exact align halign (h.exp hls hl) (h.exp hrs hr)

/-- Arithmetic leads with the minus sign of its left operand, unless it is in parentheses. -/
theorem arithmetic {lhs rhs : Exp} {op : ArithmeticOperator} {type : ValueType}
    {parenthesized : Bool} {ls rs : Columns} (hl : lhs.Fit S.final p ls)
    (hr : rhs.Fit S.final p rs) :
    Exp.Fit S.final p (.arithmetic lhs op rhs type parenthesized) (List.zipWith
      (fun (l r : Fragment) => (l ++ (" " ++ op.sql ++ " ") ++ r).parenthesizedIf parenthesized)
      ls rs) := by
  have hop : Fits S.final p 0 0 (" " ++ op.sql ++ " ") := by
    cases op <;> exact .const (by decide)
  rw [← List.map_uncurry_zip_eq_zipWith]
  refine List.forall_mem_map.2 fun q hq => ?_
  have hleft := hl _ (List.of_mem_zip hq).1
  have hright := hr _ (List.of_mem_zip hq).2
  rw [Exp.leadsWithMinus]
  exact ((hleft.append hop).append hright.fits).parenthesizedIf parenthesized

/-- The one place where a text is put right behind a minus sign. -/
theorem sign {op : SignOperator} {operand : Exp} {type : ValueType}
    (hcolumns : operand.Fit S.final p columns)
    (hsuits : (Node.exp (.sign op operand type)).Suits p) :
    Exp.Fit S.final p (.sign op operand type) (columns.map fun column => op.sql ++ column) := by
  refine List.forall_mem_map.2 fun f hf => ?_
  have hfits := hcolumns f hf
  cases op with
  | minus =>
    refine ⟨⟨fun id hid => hfits.fits.settled id ?_, ?_⟩, nofun⟩
    · rw [Fragment.Mentions, Fragment.symbols_append, List.mem_append] at hid
      refine hid.resolve_left ?_
      rw [Fragment.symbols_ofText]
      exact Sql.anchor_notMem_textSymbols
    · rw [Fragment.symbols_append]
      exact hfits.fits.admits.minus (hsuits.leads hfits.leads)
  | plus | bitwiseNot => exact .append (.const (by decide) (by decide)) hfits.fits

/-- A branch fits if its condition and its value do. -/
theorem caseBranch (h : S.Fitting p R) {branch : CaseBranch Exp} (hf : branch.Form R f)
    (hsuits : ∀ e ∈ branch.exps, (Node.exp e).Suits p) : Fits S.final p 0 0 f := by
  obtain ⟨condition, value, hcondition, hvalue, rfl⟩ := hf
  have hcondition := h.single_fits hcondition (hsuits _ (by simp [CaseBranch.exps]))
  have hvalue := h.single_fits hvalue (hsuits _ (by simp [CaseBranch.exps]))
  exact ((Fits.const (by decide)).append hcondition).append (.const (by decide)) |>.append hvalue

/-- A case fits if its branches do. -/
theorem case (h : S.Fitting p R) {branches : List (CaseBranch Exp)} {otherwise : Option Exp}
    {type : ValueType} {fs : List Fragment} {last : Option Fragment}
    (hbranches : List.Forall₂ (CaseBranch.Form R) branches fs)
    (hotherwise : Option.Rel R.single otherwise last)
    (hsuits : (Node.exp (.case branches otherwise type)).Suits p) :
    Exp.Fit S.final p (.case branches otherwise type)
      ["CASE" ++ Fragment.join "" fs ++ EntitySql.lastPart " ELSE " last ++ " END"] := by
  have hexps : ∀ e ∈ branches.flatMap (·.exps) ++ otherwise.toList, (Node.exp e).Suits p :=
    fun e he => hsuits.part (List.mem_map_of_mem he)
  have hfs : ∀ f ∈ fs, Fits S.final p 0 0 f := forall_of_forall₂ hbranches fun branch hbranch f hf =>
    h.caseBranch hf fun e he =>
      hexps e (List.mem_append_left _ (List.mem_flatMap.2 ⟨branch, hbranch, he⟩))
  have hlast := h.single? hotherwise fun e he => hexps e (List.mem_append_right _ he)
  have hstart : Sql.FitsAs S.final p false ("CASE" ++ Fragment.join "" fs) :=
    .append (.const (by decide) (by decide)) (.join (by decide) hfs)
  exact fit_singleton.2 ((hstart.append (lastPart (by decide) hlast)).append (.const (by decide)))

/-- An inline condition fits if its three arguments do. -/
theorem iif {condition consequent alternative : Exp} {type : ValueType} {c t a : Fragment}
    (hc : Fits S.final p 0 0 c) (ht : Fits S.final p 0 0 t) (ha : Fits S.final p 0 0 a) :
    Exp.Fit S.final p (.iif condition consequent alternative type)
      ["IIF(" ++ c ++ "," ++ t ++ "," ++ a ++ ")"] := by
  have hfirst : Fits S.final p 0 1 ("IIF(" ++ c ++ ",") :=
    .append (.append (.opening (by decide)) hc.anywhere) (.const (by decide))
  have hsecond : Fits S.final p 0 1 ("IIF(" ++ c ++ "," ++ t ++ ",") :=
    .append (.append hfirst ht.anywhere) (.const (by decide))
  have hall : Fits S.final p 0 0 ("IIF(" ++ c ++ "," ++ t ++ "," ++ a ++ ")") :=
    .append (.append hsecond ha.anywhere) (.closing (by decide))
  exact fit_singleton.2 ⟨hall, fun _ =>
    (Promise.leads_of_leadsWell (by decide)).left.left.left.left.left.left⟩

/-- A conversion of a column fits if the column does. -/
theorem castColumn {negative : Bool} (hf : Fits S.final p 0 0 f) (type : PrimitiveType) :
    Sql.FitsAs S.final p negative (Lowering.castColumn f type) := by
  have hcast (last : Fragment) (hlast : Fits S.final p 1 0 last) :
      Sql.FitsAs S.final p negative ("CAST(" ++ f ++ last) :=
    ⟨.append (.append (.opening (by decide)) hf.anywhere) hlast, fun _ =>
      (Promise.leads_of_leadsWell (by decide)).left.left⟩
  cases type with
  | boolean => exact .append (.append (.const (by decide) (by decide)) hf) (.const (by decide))
  | binary | geometry | dateTime | double | point2d | point3d | integer | long | string =>
    exact hcast _ (.closing (by decide))

/-- A navigation value fits if its number and its relationship class do. -/
theorem navigation (h : S.Fitting p R) {value : NavigationValue Exp} {id : Fragment}
    {relationship : Option Fragment} {declared : ClassId} (hid : R.single value.id id)
    (hrelationship : Option.Rel R.single value.relationship relationship)
    (hsuits : (Node.exp (.navigation value)).Suits p) :
    Exp.Fit S.final p (.navigation value) [id, relationship.getD declared.text] := by
  have hexps : ∀ e ∈ value.id :: value.relationship.toList, (Node.exp e).Suits p :=
    fun e he => hsuits.part (List.mem_map_of_mem he)
  have hid := h.single hid (hexps _ (List.mem_cons_self ..))
  rw [Exp.Fit, Exp.leadsWithMinus_navigation]
  refine List.forall_mem_cons.2 ⟨⟨hid.fits, fun hleads => hid.leads ?_⟩, fit_singleton.2 ?_⟩
  · exact (Bool.or_eq_false_iff.1 hleads).1
  · have hexps := fun e he => hexps e (List.mem_cons_of_mem _ he)
    generalize value.relationship = exp at hrelationship hexps
    cases hrelationship with
    | none =>
      exact .ofText (Promise.admits_classId declared)
        (Promise.leads_of_leadsWell (Sql.leadsWell_classId declared))
    | some hr =>
      have hr := h.single hr (hexps _ (List.mem_singleton_self _))
      exact ⟨hr.fits, fun hleads => hr.leads (Bool.or_eq_false_iff.1 hleads).2⟩

/-- The two columns that identify an instance are qualified names. -/
theorem admits_instanceArguments {aliasName : String} (h : p.Bracketable aliasName) :
    p.Admits 0 0 (textSymbols (instanceArguments aliasName)) := by
  have hcolumn {x : String} (hx : p.Bracketable x) :
      p.Admits 0 0 (textSymbols (qualified aliasName x)) := Promise.admits_qualified h hx
  exact ((hcolumn (Promise.bracketable_of_both (by decide))).text
    (Promise.admits_of_both (by decide))).text (hcolumn (Promise.bracketable_of_both (by decide)))

/-- A property that is extracted is named in quotes. -/
theorem extractProperty {aliasName access : String} (halias : p.Bracketable aliasName)
    (haccess : p.Quotable access) :
    e.Fit S.final p (Lowering.extractProperty aliasName access) := by
  have hstart : Fits S.final p 0 1 ("extract_prop(" ++ instanceArguments aliasName) :=
    .append (.opening (by decide)) (Fits.ofText (admits_instanceArguments halias)).anywhere
  refine fit_singleton.2 ⟨.append (.append (.append hstart (.const (by decide))) ?_)
    (.closing (by decide)), fun _ => (Promise.leads_of_leadsWell (by decide)).left.left.left.left⟩
  exact .ofText (Promise.admits_quoted haccess)

/-- An instance that is extracted is identified by qualified names. -/
theorem extractInstance {aliasName : String} (h : p.Bracketable aliasName) :
    e.Fit S.final p (Lowering.extractInstance aliasName) :=
  fit_singleton.2 ⟨.append (.append (.opening (by decide))
    (Fits.ofText (admits_instanceArguments h)).anywhere) (.closing (by decide)), fun _ =>
       (Promise.leads_of_leadsWell (by decide)).left.left⟩

/-! ## Calls -/

/-- The name of a function with a parenthesis behind it. The name can end with the beginning of a
mark, so that it only fits with what comes next. -/
theorem callName {name : String} (h : p.Bare name) :
    Fits S.final p 0 1 (Fragment.ofText name ++ Fragment.ofText "(")
      ∧ p.Leads (Fragment.ofText name ++ Fragment.ofText "(").symbols := by
  constructor
  · exact .ofText_append (Promise.admits_bare_append h (Promise.admits_of_both (by decide))
      (show "(".toList = '(' :: [] by decide) (by decide))
  · rw [Fragment.symbols_append, Fragment.symbols_ofText, Fragment.symbols_ofText,
      ← Sql.textSymbols_append]
    exact Promise.leads_bare_append h (by decide)

/-- Functions have names that may stand bare. -/
theorem writtenAs (h : S.Fitting p R) {c : FunctionCall Exp} {name suffix : String}
    (hname : c.WrittenAs S.env.functions name suffix) (hword : p.Bare c.name) :
    p.Bare name ∧ Fits S.final p 0 0 (Fragment.ofText suffix) := by
  have hwords {function : FunctionDef} (hfind : S.env.functions.find? c.name = some function) :
      ∀ x ∈ function.words, p.Bare x :=
    h.env.functions function (List.mem_of_find?_eq_some hfind)
  cases hname with
  | unknown => exact ⟨hword, .const (by decide)⟩
  | plain hfind => exact ⟨hwords hfind _ (List.mem_cons_self ..), .const (by decide)⟩
  | predicate hfind hform =>
    exact ⟨hwords hfind _ (by simp [FunctionDef.words, hform]), .const (by decide)⟩

/-- The arguments of a call fit if each one does. -/
theorem callArguments (h : S.Fitting p R) {c : FunctionCall Exp} (hargs : c.Arguments R f)
    (hsuits : ∀ e ∈ c.args, (Node.exp e).Suits p) : Fits S.final p 0 0 f := by
  cases hargs with
  | star => exact .const (f := "*") (by decide)
  | listed _ hfs => exact .join (by decide) (h.singles hfs hsuits)

/-- A call fits if its name may stand bare and its arguments fit. -/
theorem call (h : S.Fitting p R) {c : FunctionCall Exp} {call : LoweredCall}
    (hcall : c.Form S R call) (hword : p.Bare c.name)
    (hsuits : ∀ e ∈ c.args, (Node.exp e).Suits p) : call.Fit S.final p := by
  cases hcall with
  | written hname hargs =>
    obtain ⟨hname, hsuffix⟩ := h.writtenAs hname hword
    have hquantifier : Fits S.final p 1 1 (Fragment.ofText c.quantifier.sql) := by
      cases c.quantifier <;> exact .const (by decide)
    obtain ⟨hopen, hleads⟩ := callName (S := S) hname
    have hstart := (hopen.append hquantifier).append (h.callArguments hargs hsuits).anywhere
    exact ⟨⟨hstart.append (.closing (by decide)), fun _ => hleads.left.left.left⟩, hsuffix⟩
  | julianDay hfind hform =>
    have hname := h.env.functions _ (List.mem_of_find?_eq_some hfind) _ (List.mem_cons_self ..)
    have hclose := Promise.admits_bare_append hname (Promise.admits_of_both (a := 1) (b := 0)
      (by decide)) (show ")".toList = ')' :: [] by decide) (by decide)
    have hopen : p.Admits 0 1 (textSymbols "JULIANDAY(") := Promise.admits_of_both (by decide)
    constructor
    · dsimp only
      refine .ofText ?_ ?_
      · rw [String.append_assoc]
        exact hopen.text hclose
      · rw [Sql.textSymbols_append, Sql.textSymbols_append]
        exact (Promise.leads_of_leadsWell (by decide)).append.append
    · exact .const (f := "") (by decide)

/-- A call fits with what is appended to it. -/
theorem lowered {call : LoweredCall} (h : call.Fit S.final p) : Sql.FitsAs S.final p false call.sql :=
  h.call.append h.suffix

end Setting.Fitting

end EntitySql
