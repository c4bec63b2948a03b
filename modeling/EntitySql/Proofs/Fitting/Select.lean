import EntitySql.Proofs.Fitting.Clause

/-!
# Expressions and selects fit

What is lowered fits wherever it may stand, for each promise that the names suit: fitting passes
from the parts to the whole (`Setting.closed_fitting`).
-/

namespace EntitySql.Setting

open Lowering
open Sql (CapturedSelect Columns Fits FitsAs Fragment Promise bracketed)

namespace Fitting

variable {S : Setting} {p : Promise} {R : Results} {e : Exp} {columns : Columns} {f : Fragment}

/-! ## Expressions -/

/-- An expression fits if its parts do, one kind at a time. -/
theorem expForm (h : S.Fitting p R) (hcolumns : Exp.Form S R e columns)
    (hsuits : (Node.exp e).Suits p) : e.Fit S.final p columns := by
  cases hcolumns with
  | null => exact nullColumns _ _
  | literal =>
    rw [Exp.Fit, Exp.leadsWithMinus]
    exact fit_singleton.2 ((literalValue hsuits.texts).parenthesizedIf _)
  | parameter hnames => exact h.parameter hnames hsuits
  | property hproperty => exact h.property hproperty hsuits.identifiers
  | enumerator =>
    rw [Exp.Fit, Exp.leadsWithMinus]
    exact fit_singleton.2 (literalValue hsuits.texts)
  | castNull => exact nullColumns _ _
  | castSame htype hoperand =>
    -- the columns are those of the operand, and so is the sign in front of them
    intro f hf
    have hfits := h.exp hoperand (hsuits.part (List.mem_cons_self ..)) f hf
    refine ⟨hfits.fits, fun hleads => hfits.leads ?_⟩
    simpa [Exp.leadsWithMinus, htype] using hleads
  | cast htype hoperand =>
    exact List.forall_mem_map.2 fun f hf =>
      castColumn (h.columns_fits hoperand (hsuits.part (List.mem_cons_self ..)) f hf) _
  | arithmetic haligned =>
    obtain ⟨hl, hr⟩ := h.aligned haligned (hsuits.part (List.mem_cons_self ..))
      (hsuits.part (List.mem_cons_of_mem _ (List.mem_singleton_self _)))
    exact arithmetic hl hr
  | sign hoperand => exact sign (h.exp hoperand (hsuits.part (List.mem_cons_self ..))) hsuits
  | call hc =>
    refine fit_singleton.2 (lowered (h.call hc ?_ fun e he => ?_))
    · exact hsuits.words _ (List.mem_cons_self ..)
    · exact hsuits.part (List.mem_map_of_mem he)
  | case hbranches hotherwise => exact h.case hbranches hotherwise hsuits
  | iif hc ht ha =>
    exact iif (h.single_fits hc (hsuits.part (by simp [Node.parts, Exp.parts])))
      (h.single_fits ht (hsuits.part (by simp [Node.parts, Exp.parts])))
      (h.single_fits ha (hsuits.part (by simp [Node.parts, Exp.parts])))
  | navigation hid hrelationship => exact h.navigation hid hrelationship hsuits
  | extractProperty =>
    exact extractProperty (hsuits.identifiers _ (List.mem_cons_self ..))
      (hsuits.texts _ (List.mem_cons_self ..))
  | extractInstance => exact extractInstance (hsuits.identifiers _ (List.mem_cons_self ..))
  | subquery hw =>
    exact fit_singleton.2 (.parenthesized (h.subquery hw (hsuits.part (List.mem_cons_self ..))))
  | list hfs =>
    exact fit_singleton.2 (.parenthesized (.join (by decide) (h.singles hfs fun e he =>
      hsuits.part (List.mem_map_of_mem he))))
  | window hc hfilter hover => exact h.window hc hfilter hover hsuits
  | typeTest hlhs hnegation =>
    rw [Exp.Fit, Exp.leadsWithMinus]
    have hlhs := h.single hlhs (hsuits.part (List.mem_cons_self ..))
    exact fit_singleton.2 ((typeTest hlhs hnegation _).parenthesizedIf _)
  | boolean hl hr =>
    rw [Exp.Fit, Exp.leadsWithMinus]
    have hl := h.single hl (hsuits.part (List.mem_cons_self ..))
    have hr := h.single_fits hr (hsuits.part (List.mem_cons_of_mem _ (List.mem_singleton_self _)))
    exact fit_singleton.2 ((binary hl hr _).parenthesizedIf _)
  | compound haligned =>
    rw [Exp.Fit, Exp.leadsWithMinus]
    obtain ⟨hl, hr⟩ := h.aligned haligned (hsuits.part (List.mem_cons_self ..))
      (hsuits.part (List.mem_cons_of_mem _ (List.mem_singleton_self _)))
    exact fit_singleton.2 (compound hl fun f hf => (hr f hf).fits)
  | not hoperand =>
    have hoperand := h.single_fits hoperand (hsuits.part (List.mem_cons_self ..))
    have hnot : FitsAs S.final p false ("NOT " ++ _) :=
      .append (.const (by decide) (by decide)) hoperand
    refine fit_singleton.2 ⟨(hnot.parenthesizedIf _).fits, fun _ => ?_⟩
    exact (hnot.parenthesizedIf _).leads (Bool.and_false _)
  | between ho hlo hhi =>
    rw [Exp.Fit, Exp.leadsWithMinus]
    have hlo := h.bound hlo (hsuits.part (by simp [Node.parts, Exp.parts]))
    have hhi := h.bound hhi (hsuits.part (by simp [Node.parts, Exp.parts]))
    exact fit_singleton.2 (rangeTest (h.exp ho (hsuits.part (List.mem_cons_self ..))) hlo hhi)
  | @like _ _ _ negated _ _ _ ho hpattern hescape =>
    rw [Exp.Fit, Exp.leadsWithMinus]
    have hexps := fun e he => hsuits.part (m := .exp e) (List.mem_map_of_mem he)
    have ho := h.single ho (hexps _ (List.mem_cons_self ..))
    have hpattern := h.single_fits hpattern (hexps _ (List.mem_cons_of_mem _ (List.mem_cons_self ..)))
    have hlast := h.single? hescape fun e he =>
      hexps e (List.mem_cons_of_mem _ (List.mem_cons_of_mem _ he))
    have hkeyword : Fits S.final p 0 0
        (Fragment.ofText (if negated then " NOT LIKE " else " LIKE ")) := by
      cases negated <;> exact .const (by decide)
    exact fit_singleton.2 (((ho.append hkeyword).append hpattern).append
      (lastPart (by decide) hlast))
  | quantified hoperand hw hcondition hid =>
    exact quantified (h.comparedSubquery hoperand hw hcondition hid hsuits)
  | «exists» hw =>
    have hw := h.subquery hw (hsuits.part (List.mem_cons_self ..))
    exact fit_singleton.2 (.append (.const (by decide) (by decide)) hw.parenthesized)

/-! ## Items and clauses -/

/-- An alias with numbers fits if the alias does. -/
theorem numberedColumns {aliasName : String} (halias : p.Bracketable aliasName)
    (h : ∀ f ∈ columns, Fits S.final p 0 0 f) :
    ∀ f ∈ Lowering.numberedColumns aliasName columns, Fits S.final p 0 0 f :=
  List.forall_mem_map.2 fun _ hq =>
    named (h _ (List.fst_mem_of_mem_zipIdx hq)) (halias.numbered _)

/-- The columns of an item fit with their names. -/
theorem namedColumns {item : SelectItem Exp} (h : ∀ f ∈ columns, Fits S.final p 0 0 f)
    (hnames : ∀ x ∈ item.identifiers, p.Bracketable x)
    (hvalue : ∀ value, item.exp = .navigation value → p.Bracketable value.aliasName) :
    ∀ f ∈ Lowering.namedColumns (item.map Exp.operand) columns, Fits S.final p 0 0 f := by
  rw [namedColumns.eq_def]
  split
  next value hitem =>
    refine numberedColumns ?_ h
    show p.Bracketable (item.nestedAlias.getD value.aliasName)
    cases hnested : item.nestedAlias with
    | none => exact hvalue value hitem
    | some x => exact hnames x (List.mem_append_right _ (by simp [hnested]))
  next =>
    have halias : ∀ x, item.aliasName = some x → p.Bracketable x := fun x hx =>
      hnames x (List.mem_append_left _ (by simp [hx]))
    split
    next => exact h
    next x column hx =>
      exact List.forall_mem_singleton.2 (named (h _ (List.mem_singleton_self _)) (halias x hx))
    next x hx _ => exact numberedColumns (halias x hx) h

/-- An item fits, with names and without. -/
theorem selectItem (h : S.Fitting p R) {item : SelectItem Exp} {derivedAliases : Bool}
    {columns : Columns × Columns} (hcolumns : item.Form R derivedAliases columns)
    (hsuits : (Node.exp item.exp).Suits p) (hnames : ∀ x ∈ item.identifiers, p.Bracketable x) :
    (∀ f ∈ columns.1, Fits S.final p 0 0 f) ∧ ∀ f ∈ columns.2, Fits S.final p 0 0 f := by
  obtain ⟨hcompared, hwritten⟩ := hcolumns
  have hcompared := h.columns_fits hcompared hsuits
  refine ⟨?_, hcompared⟩
  rw [hwritten]
  split
  · refine namedColumns hcompared hnames fun value hvalue => ?_
    -- a navigation value in the list of items has its name from the value itself
    rw [hvalue] at hsuits
    exact hsuits.identifiers _ (List.mem_cons_self ..)
  · exact hcompared

/-- A clause that may be missing fits if its body does. -/
theorem clause {keyword : String} {body : Option Fragment} (hkeyword : Fragment.Fixed 0 0 keyword)
    (h : ∀ f ∈ body, Fits S.final p 0 0 f) : Fits S.final p 0 0 (Lowering.clause keyword body) := by
  cases body with
  | none => exact .empty
  | some f => exact .append (.const hkeyword) (h f rfl)

/-- A clause with lists of columns fits if all columns do. -/
theorem columnClause {keyword : String} {lists : List Columns}
    (hkeyword : Fragment.Fixed 0 0 keyword)
    (h : ∀ columns ∈ lists, ∀ f ∈ columns, Fits S.final p 0 0 f) :
    Fits S.final p 0 0 (Lowering.columnClause keyword lists) := by
  refine clause hkeyword fun f hf => ?_
  split at hf
  · cases hf
  · obtain rfl := Option.some.inj hf
    exact .join (by decide) (List.forall_mem_flatten.2 h)

/-- A limit fits if its count and its offset do. -/
theorem limit (h : S.Fitting p R) {limit : Limit Exp} (hf : limit.Form R f)
    (hsuits : ∀ e ∈ limit.exps, (Node.exp e).Suits p) : Fits S.final p 0 0 f := by
  obtain ⟨count, offset, hcount, hoffset, rfl⟩ := hf
  have hcount := h.single_fits hcount (hsuits _ (List.mem_cons_self ..))
  have hoffset := h.single? hoffset fun e he => hsuits e (List.mem_cons_of_mem _ he)
  exact ((Fits.const (by decide)).append hcount).append (clause (by decide) hoffset)

/-! ## Selects -/

/-- The expressions of a select and the names of its windows suit the promise. -/
theorem behind (h : S.Fitting p R) {c : SelectCore Exp Source} {behind : List Fragment}
    (hbehind : c.BehindForm R behind) (hexps : ∀ e ∈ c.exps, (Node.exp e).Suits p)
    (hnames : ∀ definition ∈ c.windows, ∀ x ∈ definition.identifiers, p.Bracketable x) :
    ∀ f ∈ behind, Fits S.final p 0 0 f := by
  obtain ⟨groupBy, having, windows, orderBy, last, hgroupBy, hhaving, hwindows, horderBy, hlast,
    rfl⟩ := hbehind
  simp only [SelectCore.exps, List.mem_append, or_imp, forall_and, List.forall_mem_map] at hexps
  obtain ⟨⟨⟨⟨⟨-, hgroup⟩, hcondition⟩, hwindow⟩, hsort⟩, hlimit⟩ := hexps
  have hgroupBy : Fits S.final p 0 0 (Lowering.columnClause " GROUP BY " groupBy) :=
    columnClause (by decide)
      (forall_of_forall₂ hgroupBy fun e he _ hcolumns => h.columns_fits hcolumns (hgroup e he))
  have hhaving : Fits S.final p 0 0 (Lowering.clause " HAVING " having) :=
    clause (by decide) (h.single? hhaving hcondition)
  have hwindows : ∀ f ∈ windows, Fits S.final p 0 0 f :=
    forall_of_forall₂ hwindows fun definition hdefinition _ hf =>
      h.windowDefinition hf (fun e he =>
        hwindow e (List.mem_flatMap.2 ⟨definition, hdefinition, he⟩)) (hnames definition hdefinition)
  have hwindows : Fits S.final p 0 0 (Lowering.clause " " (windowsPart windows)) := by
    refine clause (by decide) fun f hf => ?_
    rw [windowsPart] at hf
    split at hf
    · cases hf
    · obtain rfl := Option.some.inj hf
      exact .append (.const (by decide)) (.join (by decide) hwindows)
  have horderBy : Fits S.final p 0 0 (Lowering.columnClause " ORDER BY " orderBy) :=
    columnClause (by decide)
      (forall_of_forall₂ horderBy fun key hkey _ hcolumns => h.sortKey hcolumns (hsort key hkey))
  have hlast : Fits S.final p 0 0 (last.getD .empty) := by
    generalize c.limit = limit at hlast hlimit
    cases hlast with
    | none => exact .empty
    | some hf =>
      refine h.limit hf fun e he => hlimit e ?_
      exact List.mem_flatMap.2 ⟨_, List.mem_singleton_self _, he⟩
  simp only [List.forall_mem_cons]
  exact ⟨hgroupBy, hhaving, hwindows, horderBy, hlast, List.forall_mem_nil _⟩

/-- The first clauses of a select fit, and there is something to see in them. -/
theorem headText (quantifier : SetQuantifier) {sources : List Fragment}
    {items : List (Columns × Columns)} (hsources : ∀ f ∈ sources, Fits S.final p 0 0 f)
    (hitems : ∀ item ∈ items, ∀ f ∈ item.1, Fits S.final p 0 0 f) :
    Fits S.final p 0 0 (EntitySql.headText quantifier sources items)
      ∧ (EntitySql.headText quantifier sources items).Shown := by
  have hselect : Fits S.final p 0 0 ("SELECT " ++ quantifier.sql) := by
    cases quantifier <;> exact .const (by decide)
  have hshown : Fragment.Shown ("SELECT " ++ quantifier.sql) :=
    Fragment.shown_append.2 (.inl (Fragment.shown_ofText (by decide)))
  have hcolumns : Fits S.final p 0 0 (Fragment.join "," (items.flatMap (·.1))) :=
    .join (by decide) (List.forall_mem_flatMap.2 hitems)
  have hfrom : Fits S.final p 0 0
      (Lowering.columnClause " FROM " (sources.map fun source => [source])) :=
    columnClause (by decide)
      (List.forall_mem_map.2 fun f hf => List.forall_mem_singleton.2 (hsources f hf))
  refine ⟨(hselect.append hcolumns).append hfrom, ?_⟩
  simp only [EntitySql.headText, Fragment.shown_append, hshown, true_or]

/-- The condition of a select fits, and so does a settled anchor in its place. -/
theorem wherePart {condition : Option Fragment} {anchor : Option Sql.AnchorId}
    (h : ∀ f ∈ condition, Fits S.final p 0 0 f) (hanchor : ∀ id ∈ anchor, S.final.Settled p id) :
    Fits S.final p 0 0 (EntitySql.wherePart condition anchor) := by
  cases anchor with
  | none => exact clause (by decide) h
  | some id => exact .append (.const (by decide)) (.ofAnchor (hanchor id rfl))

/-- Clauses that are appended to a text that can be seen fit if each one does. -/
theorem foldl {fs : List Fragment} (h : Fits S.final p 0 0 f ∧ f.Shown)
    (hs : ∀ g ∈ fs, Fits S.final p 0 0 g) :
    Fits S.final p 0 0 (fs.foldl (· ++ ·) f) ∧ (fs.foldl (· ++ ·) f).Shown := by
  induction fs generalizing f with
  | nil => exact h
  | cons g fs ih =>
    obtain ⟨hg, hrest⟩ := List.forall_mem_cons.1 hs
    exact ih ⟨h.1.append hg, Fragment.shown_append.2 (.inl h.2)⟩ hrest

/-- A single select fits if its parts do, and what goes into its anchor fits in any case. -/
theorem coreForm (h : S.Fitting p R) {c : SelectCore Exp Source} {anchor : Option Sql.AnchorId}
    {captured : CapturedSelect} (hf : c.Form R anchor captured f) (hsuits : (Node.core c).Suits p) :
    captured.Fit S.final p
      ∧ ((∀ id ∈ anchor, S.final.Settled p id) → Fits S.final p 0 0 f ∧ f.Shown) := by
  obtain ⟨hsources, hitems, hcondition, hbehind⟩ := hf
  have hexps : ∀ e ∈ c.exps, (Node.exp e).Suits p := fun e he =>
    hsuits.part (List.mem_append_left _ (List.mem_map_of_mem he))
  have hnames := hsuits.identifiers
  rw [Node.vocabulary, SelectCore.identifiers, List.forall_mem_append, List.forall_mem_flatMap,
    List.forall_mem_flatMap] at hnames
  have hsources := forall_of_forall₂ hsources fun source hsource _ hf =>
    h.source hf (hsuits.part (List.mem_append_right _ (List.mem_map_of_mem hsource)))
  have hitems := forall_of_forall₂ hitems fun item hitem _ hcolumns =>
    h.selectItem hcolumns (hexps item.exp (by
      simp only [SelectCore.exps, List.mem_append, List.mem_map]
      exact .inl (.inl (.inl (.inl (.inl (.inl ⟨item, hitem, rfl⟩))))))) (hnames.1 item hitem)
  have hcondition := h.single? hcondition fun e he => hexps e (by simp_all [SelectCore.exps])
  refine ⟨⟨List.forall_mem_flatMap.2 fun item hitem => (hitems item hitem).2, hcondition⟩,
    fun hanchor => ?_⟩
  obtain ⟨hhead, hshown⟩ := headText c.quantifier hsources
    fun item hitem => (hitems item hitem).1
  exact foldl ⟨hhead.append (wherePart hcondition hanchor), Fragment.shown_append.2 (.inl hshown)⟩
    (h.behind hbehind hexps hnames.2)

/-- The further selects of a compound fit if each one does. -/
theorem arms (h : S.Fitting p R) {arms : List (CompoundArm Exp Source)} (hf : ArmsForm R arms f)
    (hsuits : ∀ arm ∈ arms, (Node.core arm.core).Suits p) : Fits S.final p 0 0 f := by
  induction hf with
  | nil => exact .empty
  | @cons arm _ _ _ _ hcore _ ih =>
    obtain ⟨harm, harms⟩ := List.forall_mem_cons.1 hsuits
    have hop : Fits S.final p 0 0 (" " ++ arm.op.sql ++ " ") := by
      cases arm.op <;> exact .const (by decide)
    exact (hop.append ((h.core hcore harm).2 nofun).1).append (ih harms)

/-- A select fits if the single selects do that it is made of. -/
theorem selectForm (h : S.Fitting p R) {w : Select Exp Source} {anchor : Option Sql.AnchorId}
    {captured : CapturedSelect} (hf : Select.Form S R w anchor captured f)
    (hsuits : (Node.select w).Suits p) :
    captured.Fit S.final p ∧ ((∀ id ∈ anchor, S.final.Settled p id) →
      Fits S.final p 0 0 f ∧ (p.given → f.Shown)) := by
  cases hf with
  | written hfirst harms =>
    obtain ⟨hcaptured, hfirst⟩ := h.core hfirst (hsuits.part (List.mem_cons_self ..))
    have harms := h.arms harms fun arm harm =>
      hsuits.part (List.mem_cons_of_mem _ (List.mem_map_of_mem (List.mem_map_of_mem harm)))
    refine ⟨hcaptured, fun hanchor => ?_⟩
    obtain ⟨hfits, hshown⟩ := hfirst hanchor
    exact ⟨hfits.append harms, fun _ => Fragment.shown_append.2 (.inl hshown)⟩
  | standsIn htexts =>
    -- under the promise the surroundings are standard, where no text stands in
    have hgiven : ¬p.given := fun hp => by
      rw [(h.env.standard hp).texts] at htexts
      cases htexts
    exact ⟨⟨nofun, nofun⟩, fun _ => ⟨.ofText fun hp => absurd hp hgiven,
      fun hp => absurd hp hgiven⟩⟩

end Fitting

variable {S : Setting} {p : Promise}

/-- What is known of results if they fit. -/
def fitting (S : Setting) (p : Promise) : Results where
  exp e columns := (Node.exp e).Suits p → e.Fit S.final p columns
  source source f := (Node.source source).Suits p → Fits S.final p 0 0 f
  core c anchor captured f := (Node.core c).Suits p → captured.Fit S.final p
    ∧ ((∀ id ∈ anchor, S.final.Settled p id) → Fits S.final p 0 0 f ∧ f.Shown)
  select w anchor captured f := (Node.select w).Suits p → captured.Fit S.final p
    ∧ ((∀ id ∈ anchor, S.final.Settled p id) → Fits S.final p 0 0 f ∧ (p.given → f.Shown))

/-- What suits the promise fits: this is known by its own definition. -/
theorem fitting_fitting (henv : S.env.Suits p) (horderly : p.given → S.orderly) :
    S.Fitting p (S.fitting p) :=
  ⟨henv, horderly, id, id, id, id⟩

/-- What is lowered fits if its parts do. -/
theorem closed_fitting (henv : S.env.Suits p) (horderly : p.given → S.orderly) :
    (S.fitting p).Closed S where
  exp := (fitting_fitting henv horderly).expForm
  source := (fitting_fitting henv horderly).sourceForm
  core := (fitting_fitting henv horderly).coreForm
  select := (fitting_fitting henv horderly).selectForm

/-- Expressions are lowered to columns that fit. -/
theorem success_fit {e : Exp} {columns : Columns} {s s' : State} (henv : S.env.Suits p)
    (horderly : p.given → S.orderly) (hsuits : (Node.exp e).Suits p) (hs : S.Ready s)
    (hrun : e.lower S.env s = (.ok columns, s')) : S.Success (e.Fit S.final p) s columns s' := by
  have hlowers : S.Lowers (S.fitting p) e := holds (closed_fitting henv horderly) (.exp e)
  exact (hlowers.lower.meets.success hs hrun).imp fun hcolumns => hcolumns hsuits

end EntitySql.Setting
