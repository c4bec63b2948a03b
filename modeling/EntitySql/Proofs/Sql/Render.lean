import EntitySql.Proofs.Except
import EntitySql.Proofs.Sql.Scan
import EntitySql.Sql.Anchor
import EntitySql.Sql.Predicate
import Mathlib.Data.Finset.Card

/-!
# Rendering fragments

A fragment renders if all its anchors are resolved and their replacements render in turn. Each
replacement may lead to others, and `AnchorTable.render` only follows them as deep as there are
anchors. `render_eq_of_renderWithin` shows that this is deep enough: the anchors that render within
some depth form a growing chain of sets, and a chain of subsets of `n` things that stands still once
stands still from then on, at the latest after `n` steps.
-/

namespace EntitySql.Sql

/-- A fragment mentions the anchors among its segments. -/
theorem Fragment.mentions_iff {fragment : Fragment} {id : AnchorId} :
    fragment.Mentions id ↔ Segment.anchor id ∈ fragment.segments := by
  rw [Mentions, symbols, List.mem_flatMap]
  constructor
  · rintro ⟨segment, hmem, hid⟩
    cases segment with
    | text t => exact absurd hid anchor_notMem_textSymbols
    | anchor other =>
      obtain rfl : id = other := by simpa [Segment.symbols] using hid
      exact hmem
  · intro h
    exact ⟨_, h, by simp [Segment.symbols]⟩

/-- Two texts with an operator between them. -/
def comparisonText (op : BooleanOperator) (texts : String × String) : String :=
  texts.1 ++ (" " ++ op.sql ++ " ") ++ texts.2

namespace AnchorTable

/-- Every anchor that is resolved in the first table has the same text in the second. -/
instance : LE AnchorTable :=
  ⟨fun t u => ∀ id replacement, t.resolved? id = some replacement →
    u.resolved? id = some replacement⟩

theorem le_refl (t : AnchorTable) : t ≤ t := fun _ _ h => h

/-- A table that knows more than another knows more than all that this one knows more than. -/
theorem le_trans {t u v : AnchorTable} (h : t ≤ u) (h' : u ≤ v) : t ≤ v :=
  fun id replacement hr => h' id replacement (h id replacement hr)

/-- A resolved anchor is in the table. -/
theorem index_lt_of_resolved {t : AnchorTable} {id : AnchorId} {replacement : Fragment}
    (h : t.resolved? id = some replacement) : id.index < t.size := by
  by_contra hge
  have hnone : t.get? id = none := List.getElem?_eq_none (by rw [size] at hge; omega)
  rw [resolved?, hnone] at h
  exact absurd h (by simp)

/-! ## Rendering segment by segment -/

variable (t : AnchorTable)

/-- The text of a segment, with replacements nested less than `bound` deep. -/
def renderSegment (bound : Nat) : Segment → Except AnchorError String
  | .text x => .ok x
  | .anchor id =>
    match t.resolved? id with
    | some replacement => t.renderWithin bound replacement
    | none => .error (.unresolved id)

variable {t} {bound bound' : Nat} {fragment : Fragment} {text : String}

/-- An anchor is rendered if it is resolved and its replacement is rendered. -/
theorem renderSegment_anchor {id : AnchorId} {x : String} :
    t.renderSegment bound (.anchor id) = .ok x
      ↔ ∃ replacement, t.resolved? id = some replacement
        ∧ t.renderWithin bound replacement = .ok x := by
  rw [renderSegment]
  cases t.resolved? id with
  | none => simp
  | some replacement => simp

/-- A fragment is rendered segment by segment. -/
theorem renderWithin_succ :
    t.renderWithin (bound + 1) fragment
      = (do let texts ← fragment.segments.mapM (t.renderSegment bound)
            return String.join texts) := by
  rw [renderWithin]
  rfl

/-- A fragment renders exactly if each of its segments does. -/
theorem renderWithin_succ_eq_ok :
    t.renderWithin (bound + 1) fragment = .ok text
      ↔ ∃ texts, List.Forall₂ (fun segment x => t.renderSegment bound segment = .ok x)
          fragment.segments texts ∧ String.join texts = text := by
  rw [renderWithin_succ, Except.bind_eq_ok]
  constructor
  · rintro ⟨texts, hmap, hjoin⟩
    exact ⟨texts, Except.mapM_eq_ok.1 hmap, Except.ok.inj hjoin⟩
  · rintro ⟨texts, hall, rfl⟩
    exact ⟨texts, Except.mapM_eq_ok.2 hall, rfl⟩

/-- What renders within some depth renders to the same text within a greater depth. -/
theorem renderWithin_mono (hle : bound ≤ bound') (h : t.renderWithin bound fragment = .ok text) :
    t.renderWithin bound' fragment = .ok text := by
  induction bound generalizing bound' fragment text with
  | zero => rw [renderWithin] at h; cases h
  | succ bound ih =>
    obtain ⟨bound', rfl⟩ : ∃ n, bound' = n + 1 := ⟨bound' - 1, by omega⟩
    rw [renderWithin_succ_eq_ok] at h ⊢
    obtain ⟨texts, hall, hjoin⟩ := h
    refine ⟨texts, hall.imp ?_, hjoin⟩
    intro segment x hx
    cases segment with
    | text y => exact hx
    | anchor id =>
      obtain ⟨replacement, hr, hx⟩ := renderSegment_anchor.1 hx
      exact renderSegment_anchor.2 ⟨replacement, hr, ih (by omega) hx⟩

/-! ## How deep replacements can be nested -/

/-- The anchor has a text that renders within this depth. -/
def RendersAt (t : AnchorTable) (bound : Nat) (id : AnchorId) : Prop :=
  ∃ x, t.renderSegment bound (.anchor id) = .ok x

instance (t : AnchorTable) (bound : Nat) (id : AnchorId) : Decidable (t.RendersAt bound id) :=
  match h : t.renderSegment bound (.anchor id) with
  | .ok x => isTrue ⟨x, h⟩
  | .error _ => isFalse fun ⟨_, hx⟩ => nomatch h.symm.trans hx

/-- A fragment can be rendered if the anchors in it can. -/
theorem exists_renderWithin_succ_iff :
    (∃ x, t.renderWithin (bound + 1) fragment = .ok x)
      ↔ ∀ id, fragment.Mentions id → t.RendersAt bound id := by
  have hsegments : (∃ x, t.renderWithin (bound + 1) fragment = .ok x)
      ↔ ∀ segment ∈ fragment.segments, ∃ x, t.renderSegment bound segment = .ok x := by
    rw [← Except.exists_mapM_eq_ok]
    simp only [renderWithin_succ_eq_ok, ← Except.mapM_eq_ok]
    exact ⟨fun ⟨_, texts, h, _⟩ => ⟨texts, h⟩, fun ⟨texts, h⟩ => ⟨_, texts, h, rfl⟩⟩
  rw [hsegments]
  constructor
  · intro h id hid
    exact h _ (Fragment.mentions_iff.1 hid)
  · intro h segment hmem
    cases segment with
    | text x => exact ⟨x, rfl⟩
    | anchor id => exact h id (Fragment.mentions_iff.2 hmem)

/-- An anchor can be rendered if its replacement can, one step less deep. -/
theorem rendersAt_iff {id : AnchorId} :
    t.RendersAt bound id
      ↔ ∃ replacement, t.resolved? id = some replacement
        ∧ ∃ x, t.renderWithin bound replacement = .ok x := by
  rw [RendersAt]
  constructor
  · rintro ⟨x, hx⟩
    obtain ⟨replacement, hr, hx⟩ := renderSegment_anchor.1 hx
    exact ⟨replacement, hr, x, hx⟩
  · rintro ⟨replacement, hr, x, hx⟩
    exact ⟨x, renderSegment_anchor.2 ⟨replacement, hr, hx⟩⟩

/-- What can be rendered can be rendered with a higher bound. -/
theorem RendersAt.mono {id : AnchorId} (h : t.RendersAt bound id) (hle : bound ≤ bound') :
    t.RendersAt bound' id := by
  obtain ⟨replacement, hr, x, hx⟩ := rendersAt_iff.1 h
  exact rendersAt_iff.2 ⟨replacement, hr, x, renderWithin_mono hle hx⟩

/-- If one more level of nesting gives no further anchor a text, no number of levels does. -/
theorem RendersAt.of_stable (hstable : ∀ id, t.RendersAt (bound + 1) id → t.RendersAt bound id)
    (k : Nat) {id : AnchorId} (h : t.RendersAt (bound + k) id) : t.RendersAt bound id := by
  induction k generalizing id with
  | zero => exact h
  | succ k ih =>
    -- the anchors of the replacement come down by `k` levels, so the anchor needs one level more
    obtain ⟨replacement, hr, hx⟩ := rendersAt_iff.1 h
    have hall := exists_renderWithin_succ_iff.1 hx
    refine hstable id (rendersAt_iff.2 ⟨replacement, hr, ?_⟩)
    exact exists_renderWithin_succ_iff.2 fun other ho => ih (hall other ho)

/-- The anchors of a table that have a text within some depth. -/
def rendered (t : AnchorTable) (bound : Nat) : Finset Nat :=
  (Finset.range t.size).filter fun i => t.RendersAt bound ⟨i⟩

/-- Which anchors can be rendered with a bound. -/
theorem mem_rendered {i : Nat} : i ∈ t.rendered bound ↔ t.RendersAt bound ⟨i⟩ := by
  rw [rendered, Finset.mem_filter, Finset.mem_range, and_iff_right_iff_imp]
  intro h
  obtain ⟨replacement, hr, -⟩ := rendersAt_iff.1 h
  exact index_lt_of_resolved hr

/-- Each further level gives a text to one more anchor, until no level does. -/
theorem le_card_rendered_or_stable (t : AnchorTable) (bound : Nat) :
    bound ≤ (t.rendered bound).card
      ∨ ∀ k id, t.RendersAt (bound + k) id → t.RendersAt bound id := by
  induction bound with
  | zero => exact Or.inl (Nat.zero_le _)
  | succ bound ih =>
    have hmono : t.rendered bound ⊆ t.rendered (bound + 1) := by
      intro i hi
      exact mem_rendered.2 ((mem_rendered.1 hi).mono (Nat.le_succ bound))
    rcases ih with hcard | hstable
    · by_cases heq : t.rendered bound = t.rendered (bound + 1)
      · -- the chain stands still here, and from here on
        right
        have hstep : ∀ id, t.RendersAt (bound + 1) id → t.RendersAt bound id := by
          intro id h
          rw [← mem_rendered (t := t), heq]
          exact mem_rendered.2 h
        intro k id h
        rw [Nat.add_assoc] at h
        exact (RendersAt.of_stable hstep (1 + k) h).mono (Nat.le_succ bound)
      · left
        have hlt := Finset.card_lt_card (hmono.ssubset_of_ne heq)
        omega
    · right
      intro k id h
      rw [Nat.add_assoc] at h
      exact (hstable (1 + k) id h).mono (Nat.le_succ bound)

/-- Replacements that end at all are nested no deeper than there are anchors. -/
theorem RendersAt.size {id : AnchorId} (h : t.RendersAt bound id) : t.RendersAt t.size id := by
  rcases le_card_rendered_or_stable t t.size with hcard | hstable
  · -- every anchor has a text within this depth
    have hall : t.rendered t.size = Finset.range t.size := by
      refine Finset.eq_of_subset_of_card_le (Finset.filter_subset _ _) ?_
      rw [Finset.card_range]
      exact hcard
    obtain ⟨replacement, hr, -⟩ := rendersAt_iff.1 h
    refine mem_rendered.1 ?_
    rw [hall]
    exact Finset.mem_range.2 (index_lt_of_resolved hr)
  · exact hstable bound id (h.mono (Nat.le_add_left bound t.size))

/-- A fragment that renders at all renders within the depth that `render` allows. -/
theorem render_eq_of_renderWithin (h : t.renderWithin bound fragment = .ok text) :
    t.render fragment = .ok text := by
  obtain ⟨bound, rfl⟩ : ∃ n, bound = n + 1 := by
    cases bound with
    | zero => rw [renderWithin] at h; cases h
    | succ n => exact ⟨n, rfl⟩
  have hall := exists_renderWithin_succ_iff.1 ⟨text, h⟩
  obtain ⟨x, hx⟩ := exists_renderWithin_succ_iff.2 fun id hid => (hall id hid).size
  -- within the greater of the two depths there is only one text
  have hmax := renderWithin_mono (Nat.le_max_left (bound + 1) (t.size + 1)) h
  rw [renderWithin_mono (Nat.le_max_right (bound + 1) (t.size + 1)) hx] at hmax
  rw [render, hx, Except.ok.inj hmax]

/-- What renders stays the same when anchors are added. -/
theorem render_of_le {u : AnchorTable} (hle : t ≤ u) (h : t.render fragment = .ok text) :
    u.render fragment = .ok text := by
  suffices hwithin : ∀ bound fragment text, t.renderWithin bound fragment = .ok text →
      u.renderWithin bound fragment = .ok text from
    render_eq_of_renderWithin (hwithin _ _ _ h)
  intro bound
  induction bound with
  | zero =>
    intro fragment text h
    rw [renderWithin] at h
    cases h
  | succ bound ih =>
    intro fragment text h
    rw [renderWithin_succ_eq_ok] at h ⊢
    obtain ⟨texts, hall, hjoin⟩ := h
    refine ⟨texts, hall.imp ?_, hjoin⟩
    intro segment x hx
    cases segment with
    | text y => exact hx
    | anchor id =>
      obtain ⟨replacement, hr, hx⟩ := renderSegment_anchor.1 hx
      exact renderSegment_anchor.2 ⟨replacement, hle id replacement hr, ih replacement x hx⟩

/-! ## Fragments one behind the other -/

/-- Text that is appended is rendered behind the rest. -/
theorem joined_appendText (text : String) (segments : List Segment) :
    (do let texts ← (appendText text segments).mapM (t.renderSegment bound)
        return String.join texts)
      = (do let texts ← segments.mapM (t.renderSegment bound)
            return String.join texts ++ text : Except AnchorError String) := by
  have htext (x : String) : t.renderSegment bound (.text x) = pure x := rfl
  fun_induction appendText text segments with
  | case1 => simp [htext, String.join_cons]
  | case2 last => simp [htext, String.join_cons]
  | case3 segment segments _ ih =>
    simp only [List.mapM_cons, bind_assoc, pure_bind, String.join_cons] at ih ⊢
    refine bind_congr fun x => ?_
    have h := congrArg (fun r : Except AnchorError String => do return x ++ (← r)) ih
    simpa [String.append_assoc] using h

/-- A segment that is added is rendered behind the rest. -/
theorem renderWithin_push (f : Fragment) (segment : Segment) :
    t.renderWithin (bound + 1) (f.push segment) = (do
      let x ← t.renderWithin (bound + 1) f
      return x ++ (← t.renderSegment bound segment)) := by
  simp only [renderWithin_succ, bind_assoc, pure_bind]
  cases segment with
  | text text =>
    rw [Fragment.push]
    split
    next h =>
      subst h
      exact bind_congr fun texts => congrArg Except.ok String.append_empty.symm
    next => exact joined_appendText text f.segments
  | anchor id => simp [Fragment.push, List.mapM_append, String.join_append, String.join_cons]

/-- Fragments one behind the other render to their texts one behind the other. -/
theorem renderWithin_append (f g : Fragment) :
    t.renderWithin (bound + 1) (f ++ g) = (do
      let x ← t.renderWithin (bound + 1) f
      return x ++ (← t.renderWithin (bound + 1) g)) := by
  obtain ⟨segments⟩ := g
  show t.renderWithin (bound + 1) (segments.foldl Fragment.push f) = _
  induction segments generalizing f with
  | nil =>
    have hempty : t.renderWithin (bound + 1) ⟨[]⟩ = pure "" := renderWithin_succ
    simp [hempty]
  | cons segment segments ih =>
    rw [List.foldl_cons, ih, renderWithin_push]
    simp only [renderWithin_succ, bind_assoc, pure_bind, List.mapM_cons, String.join_cons,
      String.append_assoc]

/-- What is put together is rendered part by part. -/
theorem render_append_eq_ok {f g : Fragment} : t.render (f ++ g) = .ok text ↔
    ∃ x y, t.render f = .ok x ∧ t.render g = .ok y ∧ text = x ++ y := by
  rw [render, renderWithin_append, Except.bind_eq_ok]
  constructor
  · rintro ⟨x, hx, hrest⟩
    obtain ⟨y, hy, htext⟩ := Except.bind_eq_ok.1 hrest
    exact ⟨x, y, hx, hy, (Except.ok.inj htext).symm⟩
  · rintro ⟨x, y, hx, hy, rfl⟩
    exact ⟨x, hx, Except.bind_eq_ok.2 ⟨y, hy, rfl⟩⟩

theorem render_ofText (x : String) : t.render (Fragment.ofText x) = .ok x := by
  rw [render, renderWithin_succ, Fragment.ofText]
  split
  next h => exact h ▸ rfl
  next => exact congrArg Except.ok (by simp [String.join_cons])

theorem render_empty : t.render .empty = .ok "" := rfl

theorem render_append {f g : Fragment} {x y : String} (hf : t.render f = .ok x)
    (hg : t.render g = .ok y) : t.render (f ++ g) = .ok (x ++ y) :=
  render_append_eq_ok.2 ⟨x, y, hf, hg, rfl⟩

/-- Text in front is rendered as it is. -/
theorem render_text_append {f : Fragment} {x : String}
    (h : t.render (Fragment.ofText x ++ f) = .ok text) : ∃ y, t.render f = .ok y ∧ text = x ++ y := by
  obtain ⟨_, y, hx, hy, rfl⟩ := render_append_eq_ok.1 h
  rw [render_ofText] at hx
  exact ⟨y, hy, by rw [Except.ok.inj hx]⟩

/-- Text at the end is rendered as it is. -/
theorem render_append_text {f : Fragment} {x : String}
    (h : t.render (f ++ Fragment.ofText x) = .ok text) : ∃ y, t.render f = .ok y ∧ text = y ++ x := by
  obtain ⟨y, _, hy, hx, rfl⟩ := render_append_eq_ok.1 h
  rw [render_ofText] at hx
  exact ⟨y, hy, by rw [Except.ok.inj hx]⟩

/-- Parentheses are rendered as they are. -/
theorem render_parenthesized_eq_ok {f : Fragment} : t.render f.parenthesized = .ok text ↔
    ∃ x, t.render f = .ok x ∧ text = "(" ++ x ++ ")" := by
  constructor
  · intro h
    obtain ⟨y, hopened, rfl⟩ := render_append_text h
    obtain ⟨x, hx, rfl⟩ := render_text_append hopened
    exact ⟨x, hx, rfl⟩
  · rintro ⟨x, hx, rfl⟩
    exact render_append (render_append (render_ofText _) hx) (render_ofText _)

/-- What is appended part by part is rendered part by part. -/
theorem render_foldl_eq_ok {f : Fragment} {fs : List Fragment} :
    t.render (fs.foldl (· ++ ·) f) = .ok text ↔ ∃ x xs, t.render f = .ok x
      ∧ List.Forall₂ (t.render · = .ok ·) fs xs ∧ text = x ++ String.join xs := by
  induction fs generalizing f text with
  | nil =>
    constructor
    · exact fun h => ⟨text, [], h, .nil, by simp⟩
    · rintro ⟨x, xs, hx, hxs, rfl⟩
      cases hxs
      simpa using hx
  | cons g fs ih =>
    rw [List.foldl_cons, ih]
    constructor
    · rintro ⟨_, ys, hxy, hys, rfl⟩
      obtain ⟨x, y, hx, hy, rfl⟩ := render_append_eq_ok.1 hxy
      exact ⟨x, y :: ys, hx, .cons hy hys, by rw [String.join_cons, String.append_assoc]⟩
    · rintro ⟨x, _, hx, hxs, rfl⟩
      obtain ⟨y, ys, hy, hys, rfl⟩ := List.forall₂_cons_left_iff.1 hxs
      exact ⟨x ++ y, ys, render_append hx hy, hys, by rw [String.join_cons, String.append_assoc]⟩

/-- Fragments with separators between them render to their texts with separators between them. -/
theorem render_join_eq_ok {separator : String} {fs : List Fragment} :
    t.render (Fragment.join separator fs) = .ok text ↔
      ∃ xs, List.Forall₂ (t.render · = .ok ·) fs xs ∧ text = separator.intercalate xs := by
  cases fs with
  | nil =>
    constructor
    · exact fun h => ⟨[], .nil, (Except.ok.inj (render_empty.symm.trans h)).symm⟩
    · rintro ⟨_, hxs, rfl⟩
      cases hxs
      exact render_empty
  | cons f fs =>
    rw [Fragment.join]
    induction fs generalizing f with
    | nil =>
      constructor
      · exact fun h => ⟨[text], .cons h .nil, (String.intercalate_singleton ..).symm⟩
      · rintro ⟨_, hxs, rfl⟩
        obtain ⟨x, _, hx, hnil, rfl⟩ := List.forall₂_cons_left_iff.1 hxs
        cases hnil
        rwa [String.intercalate_singleton]
    | cons g fs ih =>
      rw [List.foldl_cons, ih]
      constructor
      · rintro ⟨_, hall, rfl⟩
        obtain ⟨_, xs, hjoined, hxs, rfl⟩ := List.forall₂_cons_left_iff.1 hall
        obtain ⟨_, y, hfirst, hy, rfl⟩ := render_append_eq_ok.1 hjoined
        obtain ⟨x, hx, rfl⟩ := render_append_text hfirst
        refine ⟨x :: y :: xs, .cons hx (.cons hy hxs), ?_⟩
        rw [String.intercalate_cons_append, String.intercalate_cons_cons]
      · rintro ⟨_, hall, rfl⟩
        obtain ⟨x, _, hx, hrest, rfl⟩ := List.forall₂_cons_left_iff.1 hall
        obtain ⟨y, xs, hy, hxs, rfl⟩ := List.forall₂_cons_left_iff.1 hrest
        refine ⟨(x ++ separator ++ y) :: xs, .cons ?_ hxs, ?_⟩
        · exact render_append (render_append hx (render_ofText separator)) hy
        · rw [String.intercalate_cons_append, String.intercalate_cons_cons]

/-- An anchor renders to what its replacement renders to. -/
theorem render_ofAnchor {id : AnchorId} {replacement : Fragment}
    (hresolved : t.resolved? id = some replacement) (h : t.render (.ofAnchor id) = .ok text) :
    t.render replacement = .ok text := by
  obtain ⟨texts, hall, rfl⟩ := renderWithin_succ_eq_ok.1 h
  obtain ⟨x, _, hx, hnil, rfl⟩ := List.forall₂_cons_left_iff.1 hall
  cases hnil
  obtain ⟨_, hr, hx⟩ := renderSegment_anchor.1 hx
  obtain rfl := Option.some.inj (hresolved.symm.trans hr)
  simpa [String.join_cons] using render_eq_of_renderWithin hx

/-- The two columns have these texts. -/
def Renders (t : AnchorTable) (columns : Fragment × Fragment) (texts : String × String) : Prop :=
  t.render columns.1 = .ok texts.1 ∧ t.render columns.2 = .ok texts.2

/-- A comparison is rendered on both sides. -/
theorem render_comparison_eq_ok {c : Comparison} : t.render c.sql = .ok text ↔
    ∃ texts, t.Renders (c.lhs, c.rhs) texts ∧ text = comparisonText c.op texts := by
  have hop : t.render (" " ++ c.op.sql ++ " " : Fragment) = .ok (" " ++ c.op.sql ++ " ") :=
    render_append (render_append (render_ofText _) (render_ofText _)) (render_ofText _)
  constructor
  · intro h
    obtain ⟨_, y, hfirst, hy, rfl⟩ := render_append_eq_ok.1 h
    obtain ⟨x, _, hx, hop', rfl⟩ := render_append_eq_ok.1 hfirst
    obtain rfl := Except.ok.inj (hop.symm.trans hop')
    exact ⟨(x, y), ⟨hx, hy⟩, rfl⟩
  · rintro ⟨texts, ⟨hx, hy⟩, rfl⟩
    exact render_append (render_append hx hop) hy

/-! ## Reading what was rendered -/

/-- A reader that passes over each anchor as over its text reads the rendered text as it reads the
segments. -/
theorem foldlM_join {σ : Type} {read : σ → Symbol → Option σ} {segments : List Segment}
    {texts : List String}
    (hall : List.Forall₂ (fun segment x => t.renderSegment bound segment = .ok x) segments texts)
    (hanchor : ∀ id x s u, Segment.anchor id ∈ segments →
      t.renderSegment bound (.anchor id) = .ok x → read s (.anchor id) = some u →
      (textSymbols x).foldlM read s = some u)
    {s u : σ} (h : (segments.flatMap Segment.symbols).foldlM read s = some u) :
    (textSymbols (String.join texts)).foldlM read s = some u := by
  induction hall generalizing s with
  | nil => exact h
  | @cons segment x segments texts hx hall ih =>
    rw [List.flatMap_cons, List.foldlM_append] at h
    obtain ⟨v, hv, hu⟩ := Option.bind_eq_some_iff.1 h
    have hfirst : (textSymbols x).foldlM read s = some v := by
      cases segment with
      | text y =>
        obtain rfl : y = x := Except.ok.inj hx
        exact hv
      | anchor id =>
        refine hanchor id x s v (List.mem_cons_self ..) hx ?_
        rw [Segment.symbols, List.foldlM_cons] at hv
        exact (bind_pure _).symm.trans hv
    rw [String.join_cons, textSymbols_append, List.foldlM_append, hfirst]
    refine ih ?_ hu
    intro id y s u hmem
    exact hanchor id y s u (List.mem_cons_of_mem _ hmem)

/-- Every character of a fragment is in its text. -/
theorem mem_join_of_char_mem {segments : List Segment} {texts : List String}
    (hall : List.Forall₂ (fun segment x => t.renderSegment bound segment = .ok x) segments texts)
    {c : Char} (h : Symbol.char c ∈ segments.flatMap Segment.symbols) :
    c ∈ (String.join texts).toList := by
  induction hall with
  | nil => cases h
  | @cons segment x segments texts hx hall ih =>
    rw [String.join_cons, String.toList_append, List.mem_append]
    rw [List.flatMap_cons, List.mem_append] at h
    rcases h with h | h
    · left
      cases segment with
      | text y =>
        obtain rfl : y = x := Except.ok.inj hx
        exact char_mem_textSymbols.1 h
      | anchor id => simp [Segment.symbols] at h
    · exact Or.inr (ih h)

end AnchorTable

end EntitySql.Sql
