import EntitySql.Proofs.Lowering.Source

/-!
# The specifications of selects

A single select is lowered clause by clause. If an anchor waits for it, it puts its columns and its
condition into the anchor before it comes to the clauses behind `WHERE`. The clauses before and
after this point are steps like any other, so that the specification is put together from theirs.
-/

namespace EntitySql.Setting

open Lowering
open Sql (AnchorId CapturedSelect Columns Fragment)

variable {S : Setting} {R : Results} {c : SelectCore Exp Source} {w : Select Exp Source}

/-! ## Items and limits -/

/-- An item becomes the columns of its expression, with names if it has to have them. -/
theorem spec_selectItem {item : SelectItem Exp} {derivedAliases : Bool} (h : S.Lowers R item.exp) :
    S.Spec (S.eventsOf item.exp) (selectItem derivedAliases (item.map Exp.operand))
      (SelectItem.Form R derivedAliases item) := by
  have hcolumns : S.Spec (S.eventsOf item.exp) (itemColumns (item.map Exp.operand))
      (R.exp item.exp) := by
    rw [itemColumns.eq_def]
    split
    · exact h
    · exact h.lower
  exact hcolumns.make fun _ hcolumns => ⟨hcolumns, rfl⟩

/-- A limit is written if there is one. -/
theorem spec_limitClause {limit : Option (Limit Exp)}
    (h : ∀ e ∈ limit.toList.flatMap (·.exps), S.Lowers R e) :
    S.Spec ((limit.toList.flatMap (·.exps)).flatMap S.eventsOf)
      (limitClause (limit.map (.map Exp.operand)))
      fun f => ∃ last, Option.Rel (Limit.Form R) limit last ∧ f = last.getD .empty := by
  cases limit with
  | none => exact .pure ⟨none, .none, rfl⟩
  | some limit =>
    rw [Option.toList_some, List.flatMap_singleton, Limit.exps] at h ⊢
    rw [List.flatMap_cons]
    refine ((h _ (List.mem_cons_self ..)).single _).bind fun count => ?_
    refine (spec_single? (fun e he => h e (List.mem_cons_of_mem _ he)) _).make ?_
    exact fun offset hoffset hcount => ⟨_, .some ⟨count, offset, hcount, hoffset, rfl⟩, rfl⟩

/-- Windows are named in one clause, if there are any. -/
theorem spec_windows {definitions : List (WindowDefinition Exp)}
    (h : ∀ e ∈ definitions.flatMap (·.window.exps), S.Lowers R e) :
    S.Spec ((definitions.flatMap (·.window.exps)).flatMap S.eventsOf)
      (if (definitions.map (WindowDefinition.map Exp.operand)).isEmpty then pure none
        else some <$> windowClause (definitions.map (.map Exp.operand)))
      fun f => ∃ windows, List.Forall₂ (WindowDefinition.Form R) definitions windows
        ∧ f = windowsPart windows := by
  have hwindows : S.Spec (definitions.flatMap fun definition =>
      definition.window.exps.flatMap S.eventsOf)
      ((definitions.map (WindowDefinition.map Exp.operand)).mapM windowDefinition)
      (List.Forall₂ (WindowDefinition.Form R) definitions) := by
    rw [List.mapM_map]
    exact .mapM fun definition hdefinition => spec_windowDefinition fun e he =>
      h e (List.mem_flatMap.2 ⟨definition, hdefinition, he⟩)
  rw [List.flatMap_assoc, List.isEmpty_map]
  refine .ite (fun hempty => ?_) fun hempty => ?_
  · obtain rfl := List.isEmpty_iff.1 hempty
    exact .pure ⟨[], .nil, rfl⟩
  · rw [windowClause, map_bind]
    refine hwindows.before fun windows => .pure fun hwindows => ⟨windows, hwindows, ?_⟩
    have hsome : windows.isEmpty = false := by
      cases hwindows with
      | nil => exact absurd rfl hempty
      | cons => rfl
    rw [windowsPart, hsome]
    rfl

/-! ## Single selects -/

/-- The parts of a select are lowered as specified. -/
structure Parts (S : Setting) (R : Results) (c : SelectCore Exp Source) : Prop where
  exps : ∀ e ∈ c.exps, S.Lowers R e
  sources : ∀ source ∈ c.sources, S.Reads R source

/-- The clauses of a select behind its condition, and the select as a whole. -/
def lastClauses (c : SelectCore Operand (Lowering Fragment)) (sources : List Fragment)
    (items : List (Columns × Columns)) (condition : Fragment) : Lowering Fragment := do
  let groupBy ← c.groupBy.mapM (·.lower)
  let having ← Operand.single? c.having "HAVING clause"
  let windows ← if c.windows.isEmpty then pure none else some <$> windowClause c.windows
  let orderBy ← c.orderBy.mapM sortKey
  let limit ← limitClause c.limit
  return ("SELECT " ++ c.quantifier.sql) ++ Fragment.join "," (items.flatMap (·.1))
    ++ columnClause " FROM " (sources.map fun source => [source])
    ++ condition
    ++ columnClause " GROUP BY " groupBy
    ++ clause " HAVING " having
    ++ clause " " windows
    ++ columnClause " ORDER BY " orderBy
    ++ limit

/-- The clauses of a select behind its condition, one by one. -/
def clausesBehind (c : SelectCore Operand (Lowering Fragment)) : Lowering (List Fragment) := do
  let groupBy ← c.groupBy.mapM (·.lower)
  let having ← Operand.single? c.having "HAVING clause"
  let windows ← if c.windows.isEmpty then pure none else some <$> windowClause c.windows
  let orderBy ← c.orderBy.mapM sortKey
  let limit ← limitClause c.limit
  return [columnClause " GROUP BY " groupBy, clause " HAVING " having, clause " " windows,
    columnClause " ORDER BY " orderBy, limit]

/-- The condition stands between what is before it and the clauses behind it, and nothing else
depends on it. -/
theorem lastClauses_eq (c : SelectCore Operand (Lowering Fragment)) (sources : List Fragment)
    (items : List (Columns × Columns)) (condition : Fragment) :
    lastClauses c sources items condition = (do
      return (← clausesBehind c).foldl (· ++ ·)
        (headText c.quantifier sources items ++ condition)) := by
  unfold lastClauses clausesBehind
  cases c.windows.isEmpty <;>
  · simp only [bind_assoc, pure_bind, if_true, Bool.false_eq_true, if_false]
    rfl

/-- The clauses of a select are lowered in this order, whatever order they are written in. -/
theorem coreBody_eq (c : SelectCore Operand (Lowering Fragment)) (anchor : Option AnchorId) :
    coreBody c anchor = (do
      let sources ← c.sources.mapM id
      let items ← c.items.mapM (selectItem anchor.isNone)
      let condition ← Operand.single? c.condition "WHERE clause"
      let condition ← selectCondition anchor (items.flatMap (·.2)) condition
      lastClauses c sources items condition) :=
  rfl

/-- What happens in the clauses of a select behind its condition. -/
def behindEvents (S : Setting) (c : SelectCore Exp Source) : List Event :=
  c.groupBy.flatMap S.eventsOf ++ (c.having.toList.flatMap S.eventsOf
    ++ ((c.windows.flatMap (·.window.exps)).flatMap S.eventsOf
      ++ ((c.orderBy.map (·.exp)).flatMap S.eventsOf
        ++ (c.limit.toList.flatMap (·.exps)).flatMap S.eventsOf)))

/-- What happens while a single select is lowered. -/
def coreEvents (S : Setting) (c : SelectCore Exp Source) : List Event :=
  c.sources.flatMap S.sourceEvents ++ ((c.items.map (·.exp)).flatMap S.eventsOf
    ++ (c.condition.toList.flatMap S.eventsOf ++ S.behindEvents c))

/-- What happens in a select happens in its sources first. -/
theorem events_core (c : SelectCore Exp Source) : (Node.core c).events S.env = S.coreEvents c := by
  rw [Node.events_eq]
  show (c.sources.map Node.source ++ c.exps.map Node.exp).flatMap (Node.events S.env) = _
  simp only [SelectCore.exps, coreEvents, behindEvents, List.map_append, List.flatMap_append,
    List.flatMap_map, List.append_assoc]
  rfl

namespace Parts

/-- The sources of a select are lowered first, one by one. -/
theorem spec_sources (h : S.Parts R c) :
    S.Spec (c.sources.flatMap S.sourceEvents) ((coreOperands c).sources.mapM id)
      (List.Forall₂ R.source c.sources) := by
  rw [coreOperands_eq]
  show S.Spec _ ((c.sources.map _).mapM id) _
  rw [List.mapM_map]
  exact .mapM fun source hsource => h.sources source hsource _

/-- The items of a select are lowered behind its sources. -/
theorem spec_items (h : S.Parts R c) (derivedAliases : Bool) :
    S.Spec ((c.items.map (·.exp)).flatMap S.eventsOf)
      ((coreOperands c).items.mapM (selectItem derivedAliases))
      (List.Forall₂ (SelectItem.Form R derivedAliases) c.items) := by
  rw [coreOperands_eq, List.flatMap_map]
  show S.Spec _ ((c.items.map _).mapM _) _
  rw [List.mapM_map]
  refine .mapM fun item hitem => spec_selectItem (h.exps item.exp ?_)
  simp [SelectCore.exps, List.mem_map_of_mem hitem]

/-- The condition of a select is one column. -/
theorem spec_condition (h : S.Parts R c) :
    S.Spec (c.condition.toList.flatMap S.eventsOf)
      (Operand.single? (coreOperands c).condition "WHERE clause")
      (Option.Rel R.single c.condition) := by
  rw [coreOperands_eq]
  exact spec_single? (fun e he => h.exps e (by simp_all [SelectCore.exps])) _

/-- The clauses behind the condition are lowered in the order in which they are written. -/
theorem spec_clausesBehind (h : S.Parts R c) :
    S.Spec (S.behindEvents c) (clausesBehind (coreOperands c)) (c.BehindForm R) := by
  have hexps := h.exps
  simp only [SelectCore.exps, List.mem_append, or_imp, forall_and] at hexps
  obtain ⟨⟨⟨⟨-, hgroupBy⟩, hhaving⟩, hwindows⟩, horderBy⟩ := hexps.1
  rw [coreOperands_eq]
  have hkeys : S.Spec (c.groupBy.flatMap S.eventsOf)
      (c.groupBy.mapM (Operand.lower ∘ Exp.operand)) (List.Forall₂ R.exp c.groupBy) :=
    .mapM fun e he => (hgroupBy e he).lower
  have hsort : S.Spec (c.orderBy.flatMap fun key => S.eventsOf key.exp)
      (c.orderBy.mapM (sortKey ∘ .map Exp.operand)) (List.Forall₂ (SortKey.Form R) c.orderBy) :=
    .mapM fun key hkey => spec_sortKey (horderBy key.exp (List.mem_map_of_mem hkey))
  rw [← List.mapM_map] at hkeys hsort
  rw [← List.flatMap_map] at hsort
  refine hkeys.bind fun groupBy => (spec_single? hhaving _).bind fun having => ?_
  refine .ite_bind (spec_windows hwindows) fun windows => hsort.bind fun orderBy => ?_
  refine (spec_limitClause hexps.2).make ?_
  rintro _ ⟨limit, hlimit, rfl⟩ horderBy ⟨windows, hwindows, rfl⟩ hhaving hgroupBy
  exact ⟨groupBy, having, windows, orderBy, limit, hgroupBy, hhaving, hwindows, horderBy, hlimit,
    rfl⟩

/-- The text of a select ends with the clauses behind its condition. -/
theorem spec_lastClauses (h : S.Parts R c) (sources : List Fragment)
    (items : List (Columns × Columns)) (condition : Fragment) :
    S.Spec (S.behindEvents c) (lastClauses (coreOperands c) sources items condition) fun f =>
      ∃ behind, c.BehindForm R behind ∧ f
        = behind.foldl (· ++ ·) (headText c.quantifier sources items ++ condition) := by
  have hquantifier : (coreOperands c).quantifier = c.quantifier := by rw [coreOperands_eq]; rfl
  rw [lastClauses_eq, hquantifier]
  exact h.spec_clausesBehind.make fun behind hbehind => ⟨behind, hbehind, rfl⟩

end Parts

/-- A single select, in a scope of its own. -/
structure Cores (S : Setting) (R : Results) (c : SelectCore Exp Source) : Prop where
  composed : ∀ isRoot anchor, Composed S.env (S.coreEvents c) (core (coreOperands c) isRoot anchor)
  meets : ∀ isRoot, S.Meets (core (coreOperands c) isRoot none)
    fun f => ∃ captured, R.core c none captured f
  fills : ∀ isRoot id, S.Fills id (core (coreOperands c) isRoot (some id)) (R.core c (some id))

/-- With an anchor or without one, a select is put together from basic steps. -/
theorem Parts.composed (h : S.Parts R c) (isRoot : Bool) (anchor : Option AnchorId) :
    Composed S.env (S.coreEvents c) (core (coreOperands c) isRoot anchor) := by
  have hcondition (columns : Columns) (condition : Option Fragment) :
      Composed S.env [] (selectCondition anchor columns condition) := by
    cases anchor with
    | none => exact .pure _
    | some id => exact .after (.captureAt ..) fun _ => .pure _
  refine .withScope ?_
  rw [coreBody_eq]
  refine h.spec_sources.composed.bind fun sources => ?_
  refine (h.spec_items anchor.isNone).composed.bind fun items => ?_
  refine h.spec_condition.composed.bind fun f => (hcondition ..).after fun condition => ?_
  exact (h.spec_lastClauses sources items condition).composed

/-- A single select is lowered as specified if its expressions and sources are. -/
theorem Parts.cores (hR : R.Closed S) (h : S.Parts R c) : S.Cores R c := by
  refine ⟨h.composed, fun isRoot => .withScope ?_, fun isRoot id => .withScope ?_⟩
  · rw [coreBody_eq]
    refine h.spec_sources.meets.bind fun sources => (h.spec_items true).meets.bind fun items => ?_
    refine h.spec_condition.meets.bind fun condition => ?_
    refine (h.spec_lastClauses sources items _).meets.imp ?_
    rintro f ⟨behind, hbehind, rfl⟩ hcondition hitems hsources
    exact ⟨_, hR.core ⟨hsources, hitems, hcondition, hbehind⟩⟩
  · -- with an anchor, items have no names, and the anchor takes the place of the condition
    rw [coreBody_eq]
    refine .after h.spec_sources.meets fun sources => .after (h.spec_items false).meets fun items =>
      .after h.spec_condition.meets fun condition => ?_
    rw [selectCondition, bind_assoc]
    refine .captureAt_bind (h.spec_lastClauses sources items _).meets ?_
    rintro f ⟨behind, hbehind, rfl⟩ hcondition hitems hsources
    exact hR.core ⟨hsources, hitems, hcondition, hbehind⟩

/-! ## Compound selects -/

/-- What happens while a select is lowered for which no text stands in. -/
def coresEvents (S : Setting) (w : Select Exp Source) : List Event :=
  S.coreEvents w.first ++ w.rest.flatMap fun arm => S.coreEvents arm.core

/-- Nothing happens in a select for which a text stands in. -/
theorem selectEvents_eq (w : Select Exp Source) :
    S.selectEvents w = if S.env.texts.isSome then [] else S.coresEvents w := by
  rw [selectEvents, Node.events_eq, Node.written]
  split
  · rfl
  · show (w.cores.map Node.core).flatMap (Node.events S.env) = _
    rw [List.flatMap_map, funext fun c => events_core c, Select.cores, List.flatMap_cons,
      List.flatMap_map]
    rfl

/-- The further selects of a compound are written one behind the other. -/
theorem produces_arms {isRoot : Bool} {arms : List (CompoundArm Exp Source)}
    (h : ∀ arm ∈ arms, S.Cores R arm.core) :
    S.Produces (arms.flatMap fun arm => S.coreEvents arm.core)
      ((armOperands arms).forM (writeArm isRoot)) (ArmsForm R arms) := by
  rw [armOperands_eq]
  induction arms with
  | nil => exact .pure .nil
  | cons arm arms ih =>
    obtain ⟨harm, harms⟩ := List.forall_mem_cons.1 h
    have hfirst : S.Produces (S.coreEvents arm.core)
        (writeArm isRoot ⟨arm.op, coreOperands arm.core⟩) fun output =>
          ∃ captured f, R.core arm.core none captured f
            ∧ output = (" " ++ arm.op.sql ++ " ") ++ f :=
      .make ⟨harm.composed isRoot none, harm.meets isRoot⟩ fun f ⟨captured, hf⟩ =>
        ⟨captured, f, hf, rfl⟩
    refine hfirst.seq (ih harms) ?_
    rintro _ g ⟨captured, f, hf, rfl⟩ hg
    exact .cons hf hg

/-- What is left to write once the select has taken the anchor that waits for it. -/
def writeInto (select : Select Operand (Lowering Fragment)) (anchor : AnchorId) :
    Lowering Unit := do
  let isRoot ← isOutermost
  append (← core select.first isRoot (some anchor))
  select.rest.forM (writeArm isRoot)

/-- A select takes the pending anchor, and none is pending in it. -/
theorem writeSelect_apply {select : Select Operand (Lowering Fragment)} {s : State} {id : AnchorId}
    (h : s.pending = some id) (env : Environment) :
    writeSelect select env s = writeInto select id env { s with pending := none } := by
  have htake : takePending env s = (.ok (some id), { s with pending := none }) := by
    rw [takePending, h]
  rw [writeSelect, bind_apply]
  show (takePending >>= _) env s = _
  rw [bind_apply, htake]
  rfl

variable {first : SelectCore Exp Source} {rest : List (CompoundArm Exp Source)}

/-- The step that writes a select for which no text stands in. -/
theorem produces_writeSelect (hR : R.Closed S) (hfirst : S.Cores R first)
    (hrest : ∀ arm ∈ rest, S.Cores R arm.core) :
    S.Produces (S.coresEvents ⟨first, rest⟩)
      (writeSelect ⟨coreOperands first, armOperands rest⟩)
      fun output => ∃ captured, R.select ⟨first, rest⟩ none captured output := by
  constructor
  · refine .after .isOutermost fun isRoot => .after .takePending fun anchor => ?_
    exact (hfirst.composed isRoot anchor).bind fun _ =>
      .after (.append _) fun _ => (produces_arms hrest).composed
  · refine .isOutermost_bind fun isRoot => .takePending_bind ?_
    refine .after (hfirst.meets isRoot) fun f => .seq (.append rfl) (produces_arms hrest).writes ?_
    rintro _ g rfl hg ⟨captured, hf⟩
    exact ⟨captured, hR.select (.written hf hg)⟩

/-- A select that takes an anchor fills it with its columns and its condition. -/
theorem fillsWriting_writeInto (hR : R.Closed S) (hfirst : S.Cores R first)
    (hrest : ∀ arm ∈ rest, S.Cores R arm.core) (id : AnchorId) :
    S.FillsWriting id (writeInto ⟨coreOperands first, armOperands rest⟩ id)
      (R.select ⟨first, rest⟩ (some id)) := by
  have hwrites (isRoot : Bool) (f : Fragment) :
      S.Writes (do append f; (armOperands rest).forM (writeArm isRoot))
        fun output => ∃ g, ArmsForm R rest g ∧ output = f ++ g := by
    refine .seq (.append rfl) (produces_arms hrest).writes ?_
    rintro _ g rfl hg
    exact ⟨g, hg, rfl⟩
  intro s hs hid
  refine Fills.writes (hfirst.fills s.scopes.isEmpty id) (hwrites s.scopes.isEmpty) ?_ s hs hid
  rintro captured f _ hf ⟨g, hg, rfl⟩
  exact hR.select (.written hf hg)

/-- Which of the two is written depends on the environment only. -/
theorem writeOr_eq (text : StatementTexts → String) (write : Lowering Unit) :
    writeOr text write
      = environment >>= fun env => env.texts.elim write fun texts => append (text texts) := by
  refine bind_congr fun env => ?_
  cases env.texts with
  | none => rfl
  | some texts => rfl

theorem writeOr_apply (text : StatementTexts → String) (write : Lowering Unit) (env : Environment)
    (s : State) :
    writeOr text write env s
      = env.texts.elim (write env s) fun texts => append (text texts) env s := by
  rw [writeOr_eq]
  show env.texts.elim write (fun texts => append (text texts)) env s = _
  cases env.texts with
  | none => rfl
  | some texts => rfl

/-- A text stands in for a statement, or else it is written. -/
theorem produces_writeOr {text : StatementTexts → String} {write : Lowering Unit}
    {events : List Event} {R : Fragment → Prop} (h : S.Produces events write R)
    (htext : ∀ texts, S.env.texts = some texts → R (Fragment.ofText (text texts))) :
    S.Produces (if S.env.texts.isSome then [] else events) (writeOr text write) R := by
  have hbody : S.Produces (if S.env.texts.isSome then [] else events)
      (S.env.texts.elim write fun texts => append (text texts)) R := by
    cases htexts : S.env.texts with
    | none => exact h
    | some texts => exact .append (htext texts htexts)
  rw [writeOr_eq]
  exact ⟨.reading hbody.composed fun env hagree => by rw [hagree.texts],
    .environment_bind hbody.writes⟩

/-- A select, or the text that stands in for it, is written as specified. -/
theorem selects_of_cores (hR : R.Closed S) (h : ∀ c ∈ w.cores, S.Cores R c) : S.Selects R w := by
  obtain ⟨first, rest⟩ := w
  have hfirst := h first (List.mem_cons_self ..)
  have hrest : ∀ arm ∈ rest, S.Cores R arm.core := fun arm harm =>
    h _ (List.mem_cons_of_mem _ (List.mem_map_of_mem harm))
  have hwrite : Select.write ⟨first, rest⟩ = writeOr (·.select ⟨first, rest⟩)
      (writeSelect ⟨coreOperands first, armOperands rest⟩) := by rw [Select.write]
  refine ⟨?_, fun htexts id => ?_, fun htexts => ?_⟩
  · rw [hwrite, selectEvents_eq]
    exact produces_writeOr (produces_writeSelect hR hfirst hrest) fun texts htexts =>
      ⟨⟨[], none⟩, hR.select (.standsIn htexts)⟩
  · refine ⟨_, fillsWriting_writeInto hR hfirst hrest id, fun s hpending => ?_⟩
    rw [hwrite, writeOr_apply, htexts]
    exact writeSelect_apply hpending S.env
  · obtain ⟨texts, htexts⟩ := Option.ne_none_iff_exists'.1 htexts
    refine ⟨texts.select ⟨first, rest⟩, fun s => ?_⟩
    rw [hwrite, writeOr_apply, htexts]
    rfl

end EntitySql.Setting
