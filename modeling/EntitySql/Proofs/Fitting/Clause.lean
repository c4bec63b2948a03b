import EntitySql.Proofs.Fitting.Value

/-!
# Conditions, windows and sources fit

Between the columns of a clause stand keywords, commas and operators with blanks around them, so
that nothing comes right behind a dash or a slash. A condition begins with a minus sign at most if
it begins with the column of an operand that does.
-/

namespace EntitySql.Setting.Fitting

open Lowering
open Sql (CapturedSelect Columns Fits FitsAs Fragment Predicate Promise bracketed qualified
  textSymbols)

variable {S : Setting} {p : Promise} {R : Results} {e lhs rhs : Exp} {columns : Columns}
  {f g : Fragment}

/-- The columns of an expression fit. -/
theorem columns_fits (h : S.Fitting p R) (hcolumns : R.exp e columns)
    (hsuits : (Node.exp e).Suits p) : ∀ f ∈ columns, Fits S.final p 0 0 f :=
  fun f hf => (h.exp hcolumns hsuits f hf).fits

/-! ## Conditions -/

/-- Operators hold no names. -/
theorem booleanOperator (op : BooleanOperator) : Fits S.final p 0 0 (" " ++ op.sql ++ " ") := by
  cases op with
  | comparison op => cases op <;> exact .const (by decide)
  | is | isNot | «in» | notIn | «match» | notMatch | and | or => exact .const (by decide)

/-- An operator between two columns leads with the minus sign of the left one. -/
theorem binary {negative : Bool} (hf : FitsAs S.final p negative f) (hg : Fits S.final p 0 0 g)
    (op : BooleanOperator) : FitsAs S.final p negative (Lowering.binary f op g) :=
  (hf.append (booleanOperator op)).append hg

/-- A type test leads with the minus sign of what it tests. -/
theorem typeTest {negative : Bool} {negation : String} (hf : FitsAs S.final p negative f)
    (hnegation : negation ∈ ["", "NOT "]) (filter : TypeFilter) :
    FitsAs S.final p negative (f ++ (" " ++ negation ++ filter.sql)) := by
  have hkeyword : Fits S.final p 0 0 (" " ++ negation) := by
    simp only [List.mem_cons, List.not_mem_nil, or_false] at hnegation
    rcases hnegation with rfl | rfl <;> exact .const (by decide)
  exact hf.append (hkeyword.append (.ofText filter.admits_sql))

/-- Comparisons put together fit if the columns in them do. -/
theorem predicate {predicate : Predicate}
    (h : ∀ c ∈ predicate.comparisons, Fits S.final p 0 0 c.lhs ∧ Fits S.final p 0 0 c.rhs) :
    Fits S.final p 0 0 predicate.sql := by
  rw [Predicate.sql]
  split
  · exact .const (by decide)
  · refine Fits.parenthesizedIf (.join ?_ (List.forall_mem_map.2 fun c hc => ?_)) _
    · cases predicate.connective <;> decide
    · exact (((h c hc).1.append (booleanOperator c.op)).append (h c hc).2)

/-- Several comparisons are always grouped, so that only a single one can begin with a column. -/
theorem compound {ls rs : Columns} {op : BooleanOperator} {parenthesized negative : Bool}
    (hl : ∀ f ∈ ls, FitsAs S.final p negative f) (hr : ∀ f ∈ rs, Fits S.final p 0 0 f) :
    FitsAs S.final p (!parenthesized && negative)
      (Predicate.compound ls op rs parenthesized).sql := by
  constructor
  · refine predicate fun c hc => ?_
    obtain ⟨q, hq, rfl⟩ := List.mem_map.1 hc
    obtain ⟨hleft, hright⟩ := List.of_mem_zip (List.mem_of_mem_filter hq)
    exact ⟨(hl _ hleft).fits, hr _ hright⟩
  · intro hnegative
    rw [Predicate.sql]
    split
    · exact Promise.leads_of_leadsWell (by decide)
    · rw [Fragment.parenthesizedIf]
      split
      · exact (Promise.leads_of_leadsWell (by decide)).left.left
      next hgrouped =>
        unfold Predicate.compound at hgrouped ⊢
        dsimp only at hgrouped ⊢
        split at hgrouped
        next hlength =>
          obtain ⟨q, hq⟩ := List.length_eq_one_iff.1 hlength
          have hmem := List.mem_singleton_self q
          rw [← hq] at hmem
          rw [hq]
          have hleft := hl _ (List.of_mem_zip (List.mem_of_mem_filter hmem)).1
          refine (hleft.leads ?_).left.left
          rwa [Bool.eq_false_of_not_eq_true hgrouped] at hnegative
        next => exact absurd rfl hgrouped

/-- A bound of a range fits. -/
theorem bound (h : S.Fitting p R) {width : Nat} (hcolumns : R.bound e width columns)
    (hsuits : (Node.exp e).Suits p) : ∀ f ∈ columns, Fits S.final p 0 0 f := by
  rcases hcolumns with hcolumns | ⟨-, rfl⟩
  · exact h.columns_fits hcolumns hsuits
  · exact fun f hf => (nullColumns (e := e) _ _ f hf).fits

/-- A range test leads with the minus sign of what it tests. -/
theorem rangeTest {operand lower upper : Columns} {negated negative : Bool}
    (ho : ∀ f ∈ operand, FitsAs S.final p negative f) (hl : ∀ f ∈ lower, Fits S.final p 0 0 f)
    (hu : ∀ f ∈ upper, Fits S.final p 0 0 f) :
    FitsAs S.final p negative (Lowering.rangeTest operand lower upper negated) := by
  unfold Lowering.rangeTest
  extract_lets keyword terms
  have hkeyword : Fits S.final p 0 0 (Fragment.ofText keyword) := by
    cases negated <;> exact .const (by decide)
  have hterms : ∀ term ∈ terms, FitsAs S.final p negative term := by
    refine List.forall_mem_map.2 fun q hq => ?_
    obtain ⟨hcolumn, hbounds⟩ := List.of_mem_zip hq
    obtain ⟨hlo, hhi⟩ := List.of_mem_zip hbounds
    have hlower := ((ho _ hcolumn).append hkeyword).append (hl _ hlo)
    exact (hlower.append (.const (by decide))).append (hu _ hhi)
  clear_value terms
  split
  next term => exact hterms term (List.mem_singleton_self _)
  · refine .parenthesized (.join ?_ fun f hf => (hterms f hf).fits)
    cases negated <;> decide

/-! ## Comparisons with the rows of a subquery -/

/-- Columns are compared with columns of the subquery only. -/
theorem quantifiedPairs_mem {operand columns : Columns} {pairs : List (Fragment × Fragment)}
    (h : quantifiedPairs operand columns = .ok pairs) {p : Fragment × Fragment} (hp : p ∈ pairs) :
    p.1 ∈ operand ∧ p.2 ∈ columns := by
  rw [quantifiedPairs.eq_def] at h
  split at h
  · cases h
  split at h
  · obtain rfl := Except.ok.inj h
    exact List.of_mem_zip hp
  split at h
  · obtain rfl := Except.ok.inj h
    obtain ⟨f, hf, rfl⟩ := List.mem_map.1 hp
    exact ⟨List.mem_singleton_self _, hf⟩
  · cases h

/-- What takes the place of an anchor fits if the columns and the condition do. -/
theorem quantifiedCondition {operand : Columns} {op : ComparisonOperator}
    {quantifier : Quantifier} {captured : CapturedSelect}
    (h : Lowering.quantifiedCondition operand op quantifier captured = .ok f)
    (ho : ∀ f ∈ operand, Fits S.final p 0 0 f) (hc : captured.Fit S.final p) :
    Fits S.final p 0 0 f := by
  obtain ⟨pairs, hpairs, hf⟩ := Except.bind_eq_ok.1 h
  have hpredicate : Fits S.final p 0 0 (Predicate.quantified pairs op quantifier).sql := by
    refine predicate fun c hc' => ?_
    cases quantifier <;>
    · obtain ⟨q, hq, rfl⟩ := List.mem_map.1 hc'
      obtain ⟨hleft, hright⟩ := quantifiedPairs_mem hpairs hq
      exact ⟨ho _ hleft, hc.columns _ hright⟩
  split at hf
  next condition hcondition =>
    obtain rfl := Except.ok.inj hf
    have hfirst : Fits S.final p 0 0 condition.parenthesized :=
      (hc.condition condition hcondition).parenthesized
    exact (hfirst.append (.const (by decide))).append hpredicate
  next =>
    obtain rfl := Except.ok.inj hf
    exact hpredicate

/-- A subquery for which no anchor waits. -/
theorem subquery (h : S.Fitting p R) {w : Select Exp Source} {captured : CapturedSelect}
    (hf : R.output w none captured f) (hsuits : (Node.select w).Suits p) :
    Fits S.final p 0 0 f := by
  obtain ⟨g, hg, hsymbols⟩ := hf
  exact (((h.select hg hsuits).2 nofun).1).congr hsymbols

/-- A compared subquery. The condition in the place of the anchor fits because its parts do, which
settles the anchor. -/
theorem comparedSubquery (h : S.Fitting p R) {op : ComparisonOperator} {quantifier : Quantifier}
    {w : Select Exp Source} {id : Sql.AnchorId} {captured : CapturedSelect} {condition : Fragment}
    (hcolumns : R.exp e columns) (hf : R.output w (some id) captured f)
    (hcondition : Lowering.quantifiedCondition columns op quantifier captured = .ok condition)
    (hid : S.final.resolved? id = some condition)
    (hsuits : (Node.exp (.quantified e op quantifier w)).Suits p) : Fits S.final p 0 0 f := by
  have hoperand : (Node.exp e).Suits p := hsuits.part (List.mem_cons_self ..)
  have hselect : (Node.select w).Suits p :=
    hsuits.part (List.mem_cons_of_mem _ (List.mem_singleton_self _))
  obtain ⟨g, hg, hsymbols⟩ := hf
  obtain ⟨hcaptured, hfits⟩ := h.select hg hselect
  have hsettled : S.final.Settled p id :=
    (quantifiedCondition hcondition (h.columns_fits hcolumns hoperand) hcaptured).settled_of hid
  exact (hfits fun _ hother => Option.some.inj hother ▸ hsettled).1.congr hsymbols

/-- A comparison with the rows of a subquery is a word and a text in parentheses. -/
theorem quantified {op : ComparisonOperator} {quantifier : Quantifier} {w : Select Exp Source}
    (hf : Fits S.final p 0 0 f) :
    Exp.Fit S.final p (.quantified e op quantifier w) [quantifier.keyword ++ f.parenthesized] := by
  refine fit_singleton.2 (.append ?_ hf.parenthesized)
  cases quantifier <;> exact .const (by decide) (by decide)

/-! ## Windows -/

/-- A key of an order fits if its expression does. -/
theorem sortKey (h : S.Fitting p R) {key : SortKey Exp} (hcolumns : key.Form R columns)
    (hsuits : (Node.exp key.exp).Suits p) : ∀ f ∈ columns, Fits S.final p 0 0 f := by
  obtain ⟨cs, hcs, rfl⟩ := hcolumns
  have hsuffix : Fits S.final p 0 0 (Fragment.ofText key.suffix) := by
    rw [SortKey.suffix]
    rcases key.direction with _ | _ | _ <;> rcases key.nulls with _ | _ | _ <;>
      exact .const (by decide)
  exact List.forall_mem_map.2 fun f hf => (h.columns_fits hcs hsuits f hf).append hsuffix

/-- A key of a partition fits if its expression does. -/
theorem partitionKey (h : S.Fitting p R) {key : PartitionKey Exp} (hcolumns : key.Form R columns)
    (hsuits : (Node.exp key.exp).Suits p) : ∀ f ∈ columns, Fits S.final p 0 0 f := by
  obtain ⟨cs, hcs, rfl⟩ := hcolumns
  have hcs := h.columns_fits hcs hsuits
  rw [PartitionKey.collated]
  split
  · exact hcs
  next collation _ =>
    have hcollation : Fits S.final p 0 0 (" COLLATE " ++ collation.sql) := by
      cases collation <;> exact .const (by decide)
    exact List.forall_mem_map.2 fun f hf => (hcs f hf).append hcollation

/-- The start of a frame fits if its offset does. -/
theorem frameStart (h : S.Fitting p R) {start : FrameStart Exp} (hf : start.Form R f)
    (hsuits : ∀ e ∈ start.exps, (Node.exp e).Suits p) : Fits S.final p 0 0 f := by
  cases hf with
  | currentRow => exact .const (f := "CURRENT ROW") (by decide)
  | unboundedPreceding => exact .const (f := "UNBOUNDED PRECEDING") (by decide)
  | preceding hoffset =>
    exact (h.single_fits hoffset (hsuits _ (List.mem_singleton_self _))).append (.const (by decide))

/-- A bound of a frame fits if its offset does. -/
theorem frameBound (h : S.Fitting p R) {bound : FrameBound Exp} (hf : bound.Form R f)
    (hsuits : ∀ e ∈ bound.exps, (Node.exp e).Suits p) : Fits S.final p 0 0 f := by
  cases hf with
  | currentRow => exact .const (f := "CURRENT ROW") (by decide)
  | unboundedPreceding => exact .const (f := "UNBOUNDED PRECEDING") (by decide)
  | unboundedFollowing => exact .const (f := "UNBOUNDED FOLLOWING") (by decide)
  | preceding hoffset | following hoffset =>
    exact (h.single_fits hoffset (hsuits _ (List.mem_singleton_self _))).append (.const (by decide))

/-- A frame fits if its bounds do. -/
theorem frame (h : S.Fitting p R) {frame : WindowFrame Exp} (hf : frame.Form R f)
    (hsuits : ∀ e ∈ frame.extent.exps, (Node.exp e).Suits p) : Fits S.final p 0 0 f := by
  obtain ⟨extent, hextent, rfl⟩ := hf
  have hfits : Fits S.final p 0 0 extent := by
    generalize frame.extent = rows at hextent hsuits
    cases hextent with
    | start hstart => exact h.frameStart hstart hsuits
    | between hfirst hsecond =>
      have hfirst := h.frameBound hfirst fun e he => hsuits e (List.mem_append_left _ he)
      have hsecond := h.frameBound hsecond fun e he => hsuits e (List.mem_append_right _ he)
      exact .append (.append (.append (.const (by decide)) hfirst) (.const (by decide))) hsecond
  have hunit : Fits S.final p 0 0 (frame.unit.sql ++ " ") := by
    cases frame.unit <;> exact .const (by decide)
  have hexclusion :
      Fits S.final p 0 0 (Fragment.ofText (frame.exclusion.elim "" FrameExclusion.sql)) := by
    rcases frame.exclusion with _ | _ | _ | _ | _ <;> exact .const (by decide)
  exact (hunit.append hfits).append hexclusion

/-- Keys behind a keyword fit if each one does. -/
theorem keyPart {keyword : String} {lists : List Columns} (hkeyword : Fragment.Fixed 0 0 keyword)
    (h : ∀ columns ∈ lists, ∀ f ∈ columns, Fits S.final p 0 0 f) :
    ∀ f ∈ EntitySql.keyPart keyword lists, Fits S.final p 0 0 f := by
  rw [EntitySql.keyPart]
  split
  · exact List.forall_mem_nil _
  · refine List.forall_mem_singleton.2 (.append (.const hkeyword) (.join (by decide) ?_))
    exact List.forall_mem_flatten.2 h

/-- A window fits if its base may stand in brackets and its parts fit. -/
theorem windowSpec (h : S.Fitting p R) {window : WindowSpec Exp} (hf : window.Form R f)
    (hsuits : ∀ e ∈ window.exps, (Node.exp e).Suits p)
    (hbase : ∀ x ∈ window.base.toList, p.Bracketable x) : Fits S.final p 0 0 f := by
  obtain ⟨partitionBy, orderBy, last, hpartitionBy, horderBy, hlast, rfl⟩ := hf
  simp only [WindowSpec.exps, List.mem_append, or_imp, forall_and, List.forall_mem_map] at hsuits
  obtain ⟨⟨hpartition, horder⟩, hframe⟩ := hsuits
  refine .join (by decide) ?_
  simp only [List.forall_mem_append, List.forall_mem_map]
  refine ⟨⟨⟨fun x hx => .ofText (Promise.admits_bracketed (hbase x hx)), ?_⟩, ?_⟩, ?_⟩
  · exact keyPart (by decide) (forall_of_forall₂ hpartitionBy fun key hkey _ hcolumns =>
      h.partitionKey hcolumns (hpartition key hkey))
  · exact keyPart (by decide) (forall_of_forall₂ horderBy fun key hkey _ hcolumns =>
      h.sortKey hcolumns (horder key hkey))
  · generalize window.frame = frame at hlast hframe
    cases hlast with
    | none => exact List.forall_mem_nil _
    | some hf =>
      refine List.forall_mem_singleton.2 (h.frame hf fun e he => hframe e ?_)
      exact List.mem_flatMap.2 ⟨_, List.mem_singleton_self _, he⟩

/-- The window of a call fits, by name or as a whole. -/
theorem windowOver (h : S.Fitting p R) {overWindow : WindowOver Exp} (hf : overWindow.Form R f)
    (hsuits : ∀ e ∈ overWindow.exps, (Node.exp e).Suits p)
    (hnames : ∀ x ∈ overWindow.identifiers, p.Bracketable x) : Fits S.final p 0 0 f := by
  cases hf with
  | spec hspec => exact (h.windowSpec hspec hsuits hnames).parenthesized
  | name name =>
    exact .ofText (Promise.admits_bracketed (hnames name (List.mem_singleton_self _)))

/-- A window with a name fits if the name may stand in brackets. -/
theorem windowDefinition (h : S.Fitting p R) {definition : WindowDefinition Exp}
    (hf : definition.Form R f) (hsuits : ∀ e ∈ definition.window.exps, (Node.exp e).Suits p)
    (hnames : ∀ x ∈ definition.identifiers, p.Bracketable x) : Fits S.final p 0 0 f := by
  obtain ⟨g, hg, rfl⟩ := hf
  have hname : Fits S.final p 0 0 (Fragment.ofText (bracketed definition.name)) :=
    .ofText (Promise.admits_bracketed (hnames _ (List.mem_cons_self ..)))
  have hwindow := h.windowSpec hg hsuits fun x hx => hnames x (List.mem_cons_of_mem _ hx)
  exact (hname.append (.const (by decide))).append hwindow.parenthesized

/-- A filter fits if its condition does. -/
theorem filterPart {condition : Option Fragment} (h : ∀ f ∈ condition, Fits S.final p 0 0 f) :
    Fits S.final p 0 0 (EntitySql.filterPart condition) := by
  cases condition with
  | none => exact .const (f := "") (by decide)
  | some f =>
    exact .append (.append (.opening (by decide)) (h f rfl).anywhere) (.closing (by decide))

/-- A call over a window fits if the call, the filter and the window do. -/
theorem window (h : S.Fitting p R) {c : FunctionCall Exp} {filter : Option Exp}
    {overWindow : WindowOver Exp} {call : LoweredCall} {condition : Option Fragment}
    (hc : c.Form S R call) (hfilter : Option.Rel R.single filter condition)
    (hover : overWindow.Form R f) (hsuits : (Node.exp (.window c filter overWindow)).Suits p) :
    Exp.Fit S.final p (.window c filter overWindow)
      [call.call ++ EntitySql.filterPart condition ++ " OVER " ++ f ++ call.suffix] := by
  have hexps : ∀ e ∈ c.args ++ filter.toList ++ overWindow.exps, (Node.exp e).Suits p :=
    fun e he => hsuits.part (List.mem_map_of_mem he)
  simp only [List.mem_append, or_imp, forall_and] at hexps
  have hcall := h.call hc (hsuits.words _ (List.mem_cons_self ..)) hexps.1.1
  have hover := h.windowOver hover hexps.2 hsuits.identifiers
  have hstart := hcall.call.append (filterPart (h.single? hfilter hexps.1.2))
  exact fit_singleton.2 (((hstart.append (.const (by decide))).append hover).append hcall.suffix)

/-! ## Sources -/

/-- The table of a class has a name that may stand in brackets. -/
theorem table (h : S.Fitting p R) {id : ClassId} {map : ClassMap}
    (hmap : S.env.catalog.classMap id = .ok map) :
    Fits S.final p 0 0 (Fragment.ofText (bracketed map.table)) := by
  refine .ofText (Promise.admits_bracketed (h.env.catalog _ ?_))
  exact Catalog.mem_identifiers_of_map
    (Catalog.mem_maps_of_classMap? (Catalog.classMap_eq_ok.1 hmap)) (List.mem_cons_self ..)

/-- A class name fits, as a view or as a table. -/
theorem className (h : S.Fitting p R) {c : ClassName} (hf : c.Form S f)
    (halias : p.Bracketable c.effectiveAlias) : Fits S.final p 0 0 f := by
  cases hf with
  | view hview =>
    refine .ofText fun hp => ?_
    rw [(h.env.standard hp).view] at hview
    exact Catalog.admits_viewSource h.env.catalog halias hview hp
  | table hmap => exact h.table hmap

/-- The condition that two columns are equal. -/
theorem equality {x y x' y' : String} (hx : p.Bracketable x) (hy : p.Bracketable y)
    (hx' : p.Bracketable x') (hy' : p.Bracketable y') :
    Fits S.final p 0 0 (" ON " ++ qualified x y ++ "=" ++ qualified x' y') := by
  have hqualified {x y : String} (hx : p.Bracketable x) (hy : p.Bracketable y) :
      Fits S.final p 0 0 (Fragment.ofText (qualified x y)) :=
    .ofText (Promise.admits_qualified hx hy)
  have hfirst : Fits S.final p 0 0 (" ON " ++ qualified x y) :=
    .append (.const (by decide)) (hqualified hx hy)
  exact (hfirst.append (.const (by decide))).append (hqualified hx' hy')

/-- A join through a relationship fits if its three sources do. -/
theorem linkedJoin {near far link : ClassName} {nearEnd farEnd : String} {links : Fragment}
    (hf : Fits S.final p 0 0 f) (hlinks : Fits S.final p 0 0 links) (hg : Fits S.final p 0 0 g)
    (hnear : p.Bracketable near.effectiveAlias) (hfar : p.Bracketable far.effectiveAlias)
    (hlink : p.Bracketable link.effectiveAlias) (hnearEnd : nearEnd ∈ linkEnds)
    (hfarEnd : farEnd ∈ linkEnds) :
    Fits S.final p 0 0 (EntitySql.linkedJoin near far link nearEnd farEnd f links g) := by
  have hends : ∀ x ∈ linkEnds, p.Bracketable x := by
    have hboth : ∀ x ∈ linkEnds, Sql.Bracketable x ∧ Sql.Enclosable x := by decide
    exact fun x hx => Promise.bracketable_of_both (hboth x hx)
  have hinstance : p.Bracketable "ECInstanceId" := Promise.bracketable_of_both (by decide)
  have hinner : Fits S.final p 0 0 " INNER JOIN " := .const (by decide)
  have hfirst := equality (S := S) hlink (hends _ hnearEnd) hnear hinstance
  have hsecond := equality (S := S) hfar hinstance hlink (hends _ hfarEnd)
  exact (((((hf.append hinner).append hlinks).append hfirst).append hinner).append hg).append
    hsecond

/-- An alias fits if it may stand in brackets. -/
theorem aliasSuffix {aliasName : Option String} (h : ∀ x ∈ aliasName.toList, p.Bracketable x) :
    Fits S.final p 0 0 (Fragment.ofText (Lowering.aliasSuffix aliasName)) := by
  cases aliasName with
  | none => exact .const (by decide)
  | some x =>
    exact .ofText (Promise.Admits.text (Promise.admits_of_both (by decide))
      (Promise.admits_bracketed (h x (List.mem_singleton_self x))))

/-- A name behind a column fits if it may stand in brackets. -/
theorem named {aliasName : String} (hf : Fits S.final p 0 0 f) (h : p.Bracketable aliasName) :
    Fits S.final p 0 0 (f ++ (" " ++ bracketed aliasName)) :=
  hf.append (.append (.const (by decide)) (.ofText (Promise.admits_bracketed h)))

/-- A source fits if its parts do, one kind at a time. -/
theorem sourceForm (h : S.Fitting p R) {source : Source} (hf : Source.Form S R source f)
    (hsuits : (Node.source source).Suits p) : Fits S.final p 0 0 f := by
  cases hf with
  | ofClass hc => exact h.className hc (hsuits.identifiers _ (List.mem_cons_self ..))
  | cross hl hr =>
    have hl := h.source hl (hsuits.part (by simp [Node.parts, Source.parts]))
    have hr := h.source hr (hsuits.part (by simp [Node.parts, Source.parts]))
    exact (hl.append (.const (by decide))).append hr
  | @on _ _ type _ _ _ _ hl hr hc =>
    have hl := h.source hl (hsuits.part (by simp [Node.parts, Source.parts]))
    have hr := h.source hr (hsuits.part (by simp [Node.parts, Source.parts]))
    have hc := h.single_fits hc (hsuits.part (by simp [Node.parts, Source.parts, JoinKind.exps]))
    have htype : Fits S.final p 0 0 (" " ++ type.sql ++ " ") := by
      cases type <;> exact .const (by decide)
    exact (((hl.append htype).append hr).append (.const (by decide))).append hc
  | relationship hnear hfar hl hlinks hr hnearEnd hfarEnd =>
    have hlhs := hsuits.part (List.mem_cons_self ..)
    have hrhs := hsuits.part (List.mem_cons_of_mem _ (List.mem_cons_self ..))
    have hlink := hsuits.identifiers _ (List.mem_cons_self ..)
    exact linkedJoin (h.source hl hlhs) (h.className hlinks hlink) (h.source hr hrhs)
      (Source.bracketable_lastClass hlhs _ hnear) (Source.bracketable_lastClass hrhs _ hfar) hlink
      hnearEnd hfarEnd
  | subquery hw =>
    exact named (h.subquery hw (hsuits.part (List.mem_cons_self ..))).parenthesized
      (hsuits.identifiers _ (List.mem_cons_self ..))
  | function hc =>
    have hcall := h.call hc (hsuits.words _ (List.mem_cons_self ..)) fun e he =>
      hsuits.part (List.mem_map_of_mem he)
    exact (lowered hcall).fits.append (aliasSuffix hsuits.identifiers)
  | commonTable =>
    refine .append (.ofText (Promise.admits_bracketed ?_)) (aliasSuffix fun x hx => ?_)
    · exact hsuits.identifiers _ (List.mem_cons_self ..)
    · exact hsuits.identifiers x (List.mem_cons_of_mem _ hx)

end EntitySql.Setting.Fitting
