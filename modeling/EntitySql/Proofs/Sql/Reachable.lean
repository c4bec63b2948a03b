import EntitySql.Proofs.Sql.Render
import Mathlib.Data.Fintype.Card
import Mathlib.Data.Fintype.EquivFin
import Mathlib.Data.List.Perm.Subperm
import Mathlib.Logic.Relation

/-!
# Which fragments render

The anchors that matter to a fragment are those that it reaches: the ones it mentions, and those
that their replacements reach in turn. It renders exactly if all of these are resolved and none
reaches itself (`exists_render_iff_sound`), whatever else is in the table. `render` does not look
for cycles, it only gives up where replacements are nested deeper than there are anchors. So a chain
of replacements that is too long has to be shown to pass some anchor twice
(`exists_cycle_of_render`), and one that is all right never to be too long.
-/

namespace EntitySql.Sql

namespace AnchorTable

variable {t : AnchorTable} {fragment replacement : Fragment} {a b id : AnchorId} {bound : Nat}

/-! ## Reaching anchors -/

/-- The replacement of the first anchor mentions the second. -/
def LeadsTo (t : AnchorTable) (a b : AnchorId) : Prop :=
  ∃ replacement, t.resolved? a = some replacement ∧ replacement.Mentions b

/-- The fragment mentions the anchor, or one that leads to it through replacements. -/
def Reaches (t : AnchorTable) (fragment : Fragment) (id : AnchorId) : Prop :=
  ∃ a, fragment.Mentions a ∧ Relation.ReflTransGen t.LeadsTo a id

/-- Anchors in a fragment are reached. -/
theorem Reaches.of_mentions (h : fragment.Mentions id) : t.Reaches fragment id :=
  ⟨id, h, .refl⟩

/-- Anchors in a replacement are reached. -/
theorem Reaches.leadsTo (h : t.Reaches fragment a) (hab : t.LeadsTo a b) :
    t.Reaches fragment b := by
  obtain ⟨first, hfirst, hpath⟩ := h
  exact ⟨first, hfirst, hpath.tail hab⟩

/-- What the replacement of an anchor reaches, the anchor does. -/
theorem Reaches.of_replacement (hmentions : fragment.Mentions a)
    (hresolved : t.resolved? a = some replacement) (h : t.Reaches replacement id) :
    t.Reaches fragment id := by
  obtain ⟨b, hb, hpath⟩ := h
  exact ⟨a, hmentions, .head ⟨replacement, hresolved, hb⟩ hpath⟩

/-! ## Depths -/

theorem not_rendersAt_zero : ¬t.RendersAt 0 id := by
  intro h
  obtain ⟨_, _, _, hx⟩ := rendersAt_iff.1 h
  rw [renderWithin] at hx
  cases hx

/-- An anchor renders one level deeper than all anchors that it leads to. -/
theorem rendersAt_succ_iff :
    t.RendersAt (bound + 1) a
      ↔ (t.resolved? a).isSome = true ∧ ∀ b, t.LeadsTo a b → t.RendersAt bound b := by
  rw [rendersAt_iff]
  constructor
  · rintro ⟨replacement, hresolved, hrenders⟩
    refine ⟨by rw [hresolved]; rfl, ?_⟩
    rintro b ⟨other, hother, hmentions⟩
    obtain rfl := Option.some.inj (hresolved.symm.trans hother)
    exact exists_renderWithin_succ_iff.1 hrenders b hmentions
  · rintro ⟨hsome, hall⟩
    obtain ⟨replacement, hresolved⟩ := Option.isSome_iff_exists.1 hsome
    refine ⟨replacement, hresolved, exists_renderWithin_succ_iff.2 fun b hb => ?_⟩
    exact hall b ⟨replacement, hresolved, hb⟩

/-- An anchor in a replacement can be rendered with a smaller bound. -/
theorem RendersAt.leadsTo (h : t.RendersAt bound a) (hab : t.LeadsTo a b) :
    ∃ smaller < bound, t.RendersAt smaller b := by
  cases bound with
  | zero => exact absurd h not_rendersAt_zero
  | succ bound => exact ⟨bound, Nat.lt_succ_self _, (rendersAt_succ_iff.1 h).2 b hab⟩

/-- Depths decrease along replacements. -/
theorem RendersAt.transGen (h : t.RendersAt bound a) (hab : Relation.TransGen t.LeadsTo a b) :
    ∃ smaller < bound, t.RendersAt smaller b := by
  induction hab with
  | single hab => exact h.leadsTo hab
  | tail _ hbc ih =>
    obtain ⟨middle, hmiddle, hb⟩ := ih
    obtain ⟨smaller, hsmaller, hc⟩ := hb.leadsTo hbc
    exact ⟨smaller, hsmaller.trans hmiddle, hc⟩

/-- An anchor that can be rendered does not lead back to itself. -/
theorem RendersAt.not_cycle (h : t.RendersAt bound a) : ¬Relation.TransGen t.LeadsTo a a := by
  intro hcycle
  induction bound using Nat.strong_induction_on with
  | h bound ih =>
    obtain ⟨smaller, hsmaller, ha⟩ := h.transGen hcycle
    exact ih smaller hsmaller ha

/-- All anchors that are reached can be rendered if those in the fragment can. -/
theorem RendersAt.reaches (h : ∀ a, fragment.Mentions a → t.RendersAt bound a)
    (hreaches : t.Reaches fragment id) : t.RendersAt bound id := by
  obtain ⟨a, ha, hpath⟩ := hreaches
  induction hpath with
  | refl => exact h a ha
  | tail _ hstep ih =>
    obtain ⟨smaller, hsmaller, hb⟩ := ih.leadsTo hstep
    exact hb.mono hsmaller.le

/-! ## Anchors that are all right -/

/-- All anchors that a fragment reaches are resolved, and none reaches itself. -/
def Sound (t : AnchorTable) (fragment : Fragment) : Prop :=
  ∀ id, t.Reaches fragment id →
    (t.resolved? id).isSome = true ∧ ¬Relation.TransGen t.LeadsTo id id

theorem index_lt_of_isSome (h : (t.resolved? id).isSome = true) : id.index < t.size := by
  obtain ⟨_, hresolved⟩ := Option.isSome_iff_exists.1 h
  exact index_lt_of_resolved hresolved

/-- There are finitely many anchors that a sound fragment reaches, so replacements end. -/
theorem Sound.wellFounded (h : t.Sound fragment) :
    WellFounded fun a b : { id // t.Reaches fragment id } => t.LeadsTo b a := by
  have hfinite : Finite { id // t.Reaches fragment id } :=
    Finite.of_injective (fun a => (⟨a.1.index, index_lt_of_isSome (h a.1 a.2).1⟩ : Fin t.size))
      fun a b hab => Subtype.ext (congrArg AnchorId.mk (Fin.mk.inj hab))
  let below (a b : { id // t.Reaches fragment id }) : Prop := Relation.TransGen t.LeadsTo b.1 a.1
  have htrans : IsTrans _ below := ⟨fun _ _ _ hab hbc => hbc.trans hab⟩
  have hirrefl : Std.Irrefl below := ⟨fun a => (h a.1 a.2).2⟩
  exact Subrelation.wf (fun hab => .single hab) (Finite.wellFounded_of_trans_of_irrefl below)

/-- Without cycles, no path is longer than the table, so its size is enough as a bound. -/
theorem Sound.rendersAt (h : t.Sound fragment) (hid : t.Reaches fragment id) :
    t.RendersAt t.size id := by
  suffices hall : ∀ a : { id // t.Reaches fragment id }, t.RendersAt t.size a.1 from hall ⟨id, hid⟩
  intro a
  induction a using h.wellFounded.induction with
  | h a ih =>
    have hdeeper : t.RendersAt (t.size + 1) a.1 :=
      rendersAt_succ_iff.2 ⟨(h a.1 a.2).1, fun b hab => ih ⟨b, a.2.leadsTo hab⟩ hab⟩
    exact hdeeper.size

/-- A fragment can be rendered exactly if it reaches resolved anchors only, and no cycle. -/
theorem exists_render_iff_sound : (∃ text, t.render fragment = .ok text) ↔ t.Sound fragment := by
  rw [render, exists_renderWithin_succ_iff]
  constructor
  · intro h id hid
    have hrenders := RendersAt.reaches h hid
    obtain ⟨_, hresolved, -⟩ := rendersAt_iff.1 hrenders
    exact ⟨by rw [hresolved]; rfl, hrenders.not_cycle⟩
  · intro h id hid
    exact h.rendersAt (.of_mentions hid)

/-! ## The text of a fragment -/

/-- The text of a segment: that of its replacement, if it is an anchor. -/
def Fills (t : AnchorTable) : Segment → String → Prop
  | .text x, text => x = text
  | .anchor id, text => ∃ replacement, t.resolved? id = some replacement
    ∧ t.render replacement = .ok text

/-- What renders has the texts of its segments, one behind the other. -/
theorem render_eq_ok_iff {text : String} : t.render fragment = .ok text ↔
    ∃ texts, List.Forall₂ t.Fills fragment.segments texts ∧ text = String.join texts := by
  constructor
  · intro h
    obtain ⟨texts, hall, rfl⟩ := renderWithin_succ_eq_ok.1 h
    refine ⟨texts, hall.imp fun segment x hx => ?_, rfl⟩
    cases segment with
    | text y => exact Except.ok.inj hx
    | anchor id =>
      obtain ⟨replacement, hresolved, hx⟩ := renderSegment_anchor.1 hx
      exact ⟨replacement, hresolved, render_eq_of_renderWithin hx⟩
  · rintro ⟨texts, hall, rfl⟩
    -- one level more than for the replacements is enough
    have hdeeper : t.renderWithin (t.size + 1 + 1) fragment = .ok (String.join texts) := by
      refine renderWithin_succ_eq_ok.2 ⟨texts, hall.imp fun segment x hx => ?_, rfl⟩
      cases segment with
      | text y => exact congrArg Except.ok hx
      | anchor id => exact renderSegment_anchor.2 hx
    exact render_eq_of_renderWithin hdeeper

/-! ## Failures -/

/-- A failure comes from an anchor of the fragment: it is not resolved, or its replacement fails. -/
theorem exists_mentions_of_error {error : AnchorError}
    (h : t.renderWithin (bound + 1) fragment = .error error) :
    ∃ id, fragment.Mentions id
      ∧ ((t.resolved? id = none ∧ error = .unresolved id)
        ∨ ∃ replacement, t.resolved? id = some replacement
          ∧ t.renderWithin bound replacement = .error error) := by
  rw [renderWithin_succ] at h
  have hmap : fragment.segments.mapM (t.renderSegment bound) = .error error := by
    cases hmap : fragment.segments.mapM (t.renderSegment bound) with
    | error other =>
      rw [hmap] at h
      exact congrArg Except.error (Except.error.inj h)
    | ok texts =>
      rw [hmap] at h
      cases h
  obtain ⟨segment, hmem, hsegment⟩ := Except.exists_of_mapM_eq_error hmap
  cases segment with
  | text x => cases hsegment
  | anchor id =>
    refine ⟨id, Fragment.mentions_iff.2 hmem, ?_⟩
    rw [renderSegment] at hsegment
    cases hresolved : t.resolved? id with
    | none =>
      rw [hresolved] at hsegment
      exact .inl ⟨rfl, (Except.error.inj hsegment).symm⟩
    | some replacement =>
      rw [hresolved] at hsegment
      exact .inr ⟨replacement, rfl, hsegment⟩

/-- Rendering gives up on nothing but an anchor that is not resolved and too many levels. -/
theorem eq_cycle_or_unresolved {error : AnchorError}
    (h : t.renderWithin bound fragment = .error error) :
    error = .cycle
      ∨ ∃ id, error = .unresolved id ∧ t.Reaches fragment id ∧ t.resolved? id = none := by
  induction bound generalizing fragment with
  | zero =>
    rw [renderWithin] at h
    exact .inl (Except.error.inj h).symm
  | succ bound ih =>
    obtain ⟨a, ha, ⟨hnone, rfl⟩ | ⟨replacement, hresolved, hdeeper⟩⟩ := exists_mentions_of_error h
    · exact .inr ⟨a, rfl, .of_mentions ha, hnone⟩
    · refine (ih hdeeper).imp_right ?_
      rintro ⟨id, rfl, hid, hnone⟩
      exact ⟨id, rfl, .of_replacement ha hresolved hid, hnone⟩

/-- Where rendering gives up on too many levels, it has followed as many anchors, each of which
leads to all those behind it. -/
theorem exists_path_of_cycle (h : t.renderWithin bound fragment = .error .cycle) :
    ∃ path : List AnchorId, path.length = bound
      ∧ path.Pairwise (Relation.TransGen t.LeadsTo)
      ∧ ∀ id ∈ path, t.Reaches fragment id ∧ id.index < t.size := by
  induction bound generalizing fragment with
  | zero => exact ⟨[], rfl, .nil, List.forall_mem_nil _⟩
  | succ bound ih =>
    obtain ⟨a, ha, ⟨-, herror⟩ | ⟨replacement, hresolved, hdeeper⟩⟩ := exists_mentions_of_error h
    · cases herror
    obtain ⟨path, rfl, hpairwise, hpath⟩ := ih hdeeper
    refine ⟨a :: path, rfl, List.pairwise_cons.2 ⟨fun id hid => ?_, hpairwise⟩, ?_⟩
    · obtain ⟨b, hb, hsteps⟩ := (hpath id hid).1
      exact .head' ⟨replacement, hresolved, hb⟩ hsteps
    · refine List.forall_mem_cons.2 ⟨⟨.of_mentions ha, index_lt_of_resolved hresolved⟩, ?_⟩
      exact fun id hid => ⟨.of_replacement ha hresolved (hpath id hid).1, (hpath id hid).2⟩

/-- The path is longer than there are anchors, so that it passes one of them twice. -/
theorem exists_cycle_of_render (h : t.render fragment = .error .cycle) :
    ∃ id, t.Reaches fragment id ∧ Relation.TransGen t.LeadsTo id id := by
  obtain ⟨path, hlength, hpairwise, hpath⟩ := exists_path_of_cycle h
  by_contra hnone
  have hnodup : (path.map AnchorId.index).Nodup := by
    refine List.pairwise_map.2 (hpairwise.imp_of_mem fun {a b} ha _ hab heq => hnone ?_)
    obtain rfl : a = b := congrArg AnchorId.mk heq
    exact ⟨a, (hpath a ha).1, hab⟩
  have hsubset : path.map AnchorId.index ⊆ List.range t.size := by
    refine List.forall_mem_map.2 fun id hid => List.mem_range.2 (hpath id hid).2
  have hle := (hnodup.subperm hsubset).length_le
  rw [List.length_map, List.length_range, hlength] at hle
  omega

/-- A fragment renders exactly if all anchors that it reaches are resolved and none of them reaches
itself. Its text is then made of those of its segments, where an anchor has the text of its
replacement. Otherwise rendering ends with one of the two reasons. -/
theorem render_iff_reaches (t : AnchorTable) (fragment : Fragment) :
    ((∃ text, t.render fragment = .ok text) ↔ ∀ id, t.Reaches fragment id →
        (t.resolved? id).isSome = true ∧ ¬Relation.TransGen t.LeadsTo id id)
      ∧ (∀ text, t.render fragment = .ok text ↔
        ∃ texts, List.Forall₂ t.Fills fragment.segments texts ∧ text = String.join texts)
      ∧ ∀ error, t.render fragment = .error error →
        (error = .cycle ∧ ∃ id, t.Reaches fragment id ∧ Relation.TransGen t.LeadsTo id id)
          ∨ ∃ id, error = .unresolved id ∧ t.Reaches fragment id ∧ t.resolved? id = none := by
  refine ⟨exists_render_iff_sound, fun text => render_eq_ok_iff, fun error h => ?_⟩
  rcases eq_cycle_or_unresolved h with rfl | hunresolved
  · exact .inl ⟨rfl, exists_cycle_of_render h⟩
  · exact .inr hunresolved

-- two anchors may be nested as deep as two, and each may be used again
example :
    render ⟨[.resolved (.ofAnchor ⟨1⟩ ++ ", " ++ .ofAnchor ⟨1⟩), .resolved "x"]⟩ (.ofAnchor ⟨0⟩)
      = .ok "x, x" := by
  rfl

end AnchorTable

end EntitySql.Sql
