import EntitySql.Proofs.Lowering.Condition

/-!
# Comparisons with the rows of a subquery

A comparison with all or some rows of a subquery reserves an anchor, lowers the subquery, which puts
its columns and its condition into the anchor, takes them out again and resolves the anchor.
`spec_quantified` follows this course. Whatever the subquery does to later anchors, this one is
there when it is needed, and at the end the table only has new anchors, all of them resolved.
-/

namespace EntitySql

open Lowering
open Sql (AnchorId AnchorState AnchorTable CapturedSelect Columns Fragment)

namespace Setting

variable {S : Setting} {R : Results} {w : Select Exp Source} {s s' : State} {id : AnchorId}

/-! ## The condition in the place of the anchor -/

/-- Columns that cannot be compared with those of a subquery are no defect. -/
theorem isDefect_of_quantifiedCondition {operand : Columns} {op : ComparisonOperator}
    {quantifier : Quantifier} {captured : CapturedSelect} {violation : Violation}
    (h : quantifiedCondition operand op quantifier captured = .error violation) :
    violation.isDefect = false := by
  rw [quantifiedCondition] at h
  cases hpairs : quantifiedPairs operand captured.columns with
  | ok pairs =>
    rw [hpairs] at h
    cases hcondition : captured.condition <;> rw [hcondition] at h <;> cases h
  | error other =>
    rw [hpairs] at h
    obtain rfl := Except.error.inj h
    rw [quantifiedPairs.eq_def] at hpairs
    split at hpairs
    · obtain rfl := Except.error.inj hpairs
      rfl
    split at hpairs
    · cases hpairs
    split at hpairs
    · cases hpairs
    · obtain rfl := Except.error.inj hpairs
      rfl

/-! ## The course of a comparison -/

/-- The end of a comparison: the anchor gives the parts of the subquery and is resolved with the
condition that they make. -/
def resolveWith (operand : Columns) (op : ComparisonOperator) (quantifier : Quantifier)
    (anchor : AnchorId) (subquery : Fragment) : Lowering Columns := do
  if (← takePending).isSome then
    violate .anchorNotTaken
  let captured ← takeCapture anchor
  resolveAnchor anchor (← ofRule (quantifiedCondition operand op quantifier captured))
  return [quantifier.keyword ++ subquery.parenthesized]

/-- A comparison with the rows of a subquery, with the steps on its anchor together. -/
theorem quantified_eq (operand : Operand) (op : ComparisonOperator) (quantifier : Quantifier)
    (isCompound : Bool) (select : Lowering Unit) :
    quantified operand op quantifier isCompound select = (do
      if isCompound then
        reject .compoundQuantified
      let columns ← operand.lower
      let anchor ← reserveAnchor
      let subquery ← Lowering.capture select
      resolveWith columns op quantifier anchor subquery) :=
  rfl

/-- What the end of a comparison does if the subquery has put its parts into the anchor. -/
theorem resolveWith_apply {operand : Columns} {op : ComparisonOperator} {quantifier : Quantifier}
    {subquery : Fragment} {captured : CapturedSelect} (hpending : s.pending = none)
    (hget : s.anchors.get? id = some (.captured captured)) (env : Environment) :
    resolveWith operand op quantifier id subquery env s =
      match quantifiedCondition operand op quantifier captured with
      | .ok f => (.ok [quantifier.keyword ++ subquery.parenthesized], s.setAnchor id (.resolved f))
      | .error violation => (.error (.internal violation), s.setAnchor id .reserved) := by
  obtain ⟨hlt, -⟩ := List.getElem?_eq_some_iff.1 hget
  have hreserved : (s.anchors.set id .reserved).get? id = some .reserved :=
    List.getElem?_set_self hlt
  have htake : takeCapture id env { s with pending := none }
      = (.ok captured, s.setAnchor id .reserved) := by
    rw [takeCapture, AnchorTable.takeCapture, hget, ← hpending]
    rfl
  have hresolve (f : Fragment) : resolveAnchor id f env (s.setAnchor id .reserved)
      = (.ok (), s.setAnchor id (.resolved f)) := by
    rw [resolveAnchor, AnchorTable.resolve, State.setAnchor, hreserved, AnchorTable.set,
      AnchorTable.set, List.set_set]
    rfl
  -- taken out, the anchor is reserved again; then it is resolved
  rw [resolveWith, bind_apply, takePending, hpending]
  show (takeCapture id >>= _) env { s with pending := none } = _
  rw [bind_apply, htake]
  show (ofRule (quantifiedCondition operand op quantifier captured) >>= _) env _ = _
  cases quantifiedCondition operand op quantifier captured with
  | error violation => rfl
  | ok f =>
    show (resolveAnchor id f >>= _) env (s.setAnchor id .reserved) = _
    rw [bind_apply, hresolve]
    rfl

/-- A subquery that is captured while an anchor waits for it fills the anchor. -/
theorem Selects.filled_capture (h : S.Selects R w) (htexts : S.env.texts = none)
    (hpending : s.pending = some id) (hparameters : S.orderly → s.parameters.BoundBy fun _ => True)
    (hid : s.anchors.get? id = some .reserved) :
    S.Filled id (R.output w (some id)) { s with pending := none }
      (Lowering.capture w.write S.env s) := by
  obtain ⟨taken, hfills, htaken⟩ := h.fills htexts id
  obtain ⟨output, hextends, hfilled⟩ :=
    hfills { s with buffer := s.buffer.pushFrame, pending := none } ⟨rfl, hparameters⟩ hid
  rw [← htaken { s with buffer := s.buffer.pushFrame } hpending] at hextends hfilled
  rw [Lowering.capture]
  rcases hend : w.write S.env { s with buffer := s.buffer.pushFrame } with ⟨_ | u, s'⟩ <;>
    rw [hend] at hextends hfilled <;> obtain ⟨hbuffer, hpopped⟩ := hextends.popFrame
  · obtain ⟨entry, hfailure⟩ := hfilled
    exact ⟨entry, Failure.enclosed hfailure fun hkeeps => hkeeps.withBuffer hbuffer⟩
  · obtain ⟨captured, hsuccess⟩ := hfilled
    exact ⟨captured, Success.enclosed (Success.imp hsuccess fun hf => ⟨output, hf, hpopped.symm⟩)
      rfl rfl fun hkeeps => hkeeps.withBuffer hbuffer⟩

end Setting

/-- The state with a new anchor, and some entry for it. -/
def State.withAnchor (s : State) (entry : AnchorState) : State :=
  State.setAnchor { s with anchors := s.anchors.reserve.2, pending := none } s.anchors.reserve.1
    entry

theorem State.withAnchor_entries (s : State) (entry : AnchorState) :
    (s.withAnchor entry).anchors.entries = s.anchors.entries ++ [entry] := by
  show (s.anchors.entries ++ [AnchorState.reserved]).set s.anchors.entries.length entry = _
  rw [List.set_append_right _ _ (Nat.le_refl _), Nat.sub_self]
  rfl

namespace Setting

variable {S : Setting} {R : Results} {w : Select Exp Source} {operand : Exp} {s s' : State}

/-- A new anchor changes nothing that was there. -/
theorem Ready.keeps_withAnchor (hs : S.Ready s) (entry : AnchorState) :
    s.Keeps (s.withAnchor entry) := by
  refine ⟨rfl, rfl, rfl, hs.pending.symm, ?_, List.prefix_rfl⟩
  rw [State.withAnchor_entries]
  exact List.prefix_append ..

/-- The end of a comparison whose subquery has put its parts into a new anchor. -/
theorem outcome_resolveWith {columns : Columns} {op : ComparisonOperator} {quantifier : Quantifier}
    {subquery : Fragment} {captured : CapturedSelect} (hs : S.Ready s)
    (h : S.Success (R.output w (some s.anchors.reserve.1) captured)
      (s.withAnchor (.captured captured)) subquery s') :
    S.Outcome (fun result => R.exp operand columns →
        Exp.Form S R (.quantified operand op quantifier w) result) s
      (resolveWith columns op quantifier s.anchors.reserve.1 subquery S.env s') := by
  have hget : (s.withAnchor (.captured captured)).anchors.get? s.anchors.reserve.1
      = some (.captured captured) := by
    rw [AnchorTable.get?, State.withAnchor_entries]
    exact List.getElem?_concat_length
  have hget' := AnchorTable.get?_of_prefix h.keeps.anchors hget
  -- nothing but this comparison looks into its anchor, so the subquery might as well have been
  -- lowered with the entry that the anchor has in the end
  have hset (entry : AnchorState) : S.Success (R.output w (some s.anchors.reserve.1) captured)
      (s.withAnchor entry) subquery (s'.setAnchor s.anchors.reserve.1 entry) := by
    have hset := h.setAnchor hget (by rw [AnchorTable.resolved?, hget]) entry
    rwa [State.withAnchor, State.setAnchor_setAnchor] at hset
  rw [resolveWith_apply h.keeps.pending hget']
  cases hcondition : quantifiedCondition columns op quantifier captured with
  | error violation =>
    have hkeeps := (hs.keeps_withAnchor .reserved).trans (hset .reserved).keeps
    exact ⟨hkeeps, fun _ => isDefect_of_quantifiedCondition hcondition, fun _ => rfl⟩
  | ok f =>
    refine ⟨(hs.keeps_withAnchor (.resolved f)).trans (hset (.resolved f)).keeps, ?_, h.issues,
      h.parameters, fun hfinal hoperand => ?_⟩
    · exact AnchorTable.GrowsTo.trans ⟨[f], State.withAnchor_entries s _⟩ (hset _).anchors
    · have hresolved : S.final.resolved? s.anchors.reserve.1 = some f := by
        refine hfinal _ f ?_
        rw [AnchorTable.resolved?, State.setAnchor, AnchorTable.get?, AnchorTable.set,
          List.getElem?_set_self (List.getElem?_eq_some_iff.1 hget').1]
      exact .quantified hoperand ((hset (.resolved f)).result hfinal) hcondition hresolved

/-- The anchor is filled by the subquery and resolved with the comparison, so it is settled in the
end. -/
theorem meets_quantified {op : ComparisonOperator} {quantifier : Quantifier} {isCompound : Bool}
    (h : S.Lowers R operand) (hselect : S.Selects R w) :
    S.Meets (quantified operand.operand op quantifier isCompound w.write)
      (Exp.Form S R (.quantified operand op quantifier w)) := by
  rw [quantified_eq]
  refine .guard fun _ => h.lower.meets.bind fun columns => ?_
  intro s hs
  have hreserved : s.anchors.reserve.2.get? s.anchors.reserve.1 = some .reserved :=
    List.getElem?_concat_length
  let waiting : State :=
    { s with anchors := s.anchors.reserve.2, pending := some s.anchors.reserve.1 }
  show S.Outcome _ s ((Lowering.capture w.write >>= _) S.env waiting)
  by_cases htexts : S.env.texts = none
  · have hfilled := hselect.filled_capture (s := waiting) htexts rfl hs.parameters hreserved
    rw [bind_apply]
    rcases hend : Lowering.capture w.write S.env waiting with ⟨_ | subquery, s'⟩ <;>
      rw [hend] at hfilled
    · obtain ⟨entry, hfailure⟩ := hfilled
      exact ⟨(hs.keeps_withAnchor entry).trans hfailure.keeps, hfailure.isDefect,
        hfailure.isMissingTable⟩
    · obtain ⟨captured, hsuccess⟩ := hfilled
      exact outcome_resolveWith hs hsuccess
  · -- the text that stands in for the subquery leaves the anchor waiting, which is a defect
    obtain ⟨text, hstandsIn⟩ := hselect.standsIn htexts
    obtain ⟨hbuffer, -⟩ := (Sql.Buffer.Extends.append s.buffer.pushFrame text).popFrame
    rw [bind_apply, Lowering.capture, hstandsIn]
    exact ⟨⟨hbuffer, rfl, rfl, hs.pending.symm, List.prefix_append .., List.prefix_rfl⟩,
      fun hstandard => absurd hstandard.texts htexts, fun _ => rfl⟩

/-- A comparison with the rows of a subquery is as specified, and so are its events. -/
theorem spec_quantified {op : ComparisonOperator} {quantifier : Quantifier} {isCompound : Bool}
    (h : S.Lowers R operand) (hselect : S.Selects R w) :
    S.Spec (S.eventsOf operand ++ S.selectEvents w)
      (quantified operand.operand op quantifier isCompound w.write)
      (Exp.Form S R (.quantified operand op quantifier w)) := by
  refine ⟨?_, meets_quantified h hselect⟩
  have hresolve (columns : Columns) (anchor : AnchorId) (subquery : Fragment) :
      Composed S.env [] (resolveWith columns op quantifier anchor subquery) := by
    refine .after .takePending fun pending => .ite (fun _ => .violate _) fun _ => ?_
    exact .after (.takeCapture _) fun _ => .after (.ofRule _) fun _ =>
      .after (.resolveAnchor ..) fun _ => .pure _
  rw [quantified_eq]
  refine .ite (fun _ => .reject _) fun _ => h.lower.composed.bind fun columns => ?_
  exact .after .reserveAnchor fun anchor => hselect.produces.composed.capture.before fun subquery =>
    hresolve columns anchor subquery

end Setting

end EntitySql
