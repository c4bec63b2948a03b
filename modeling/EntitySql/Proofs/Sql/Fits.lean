import EntitySql.Proofs.Sql.Promise
import EntitySql.Proofs.Sql.Render
import EntitySql.Text.Blank

/-!
# Fragments that fit

While a statement is lowered, fragments hold anchors whose texts are made later. `Fits` says what is
known about such a fragment, seen from the table of anchors at the end: its anchors are `Settled`
there, and its own symbols are in order between places with `a` and `b` open parentheses. The latter
depends on the names in the statement, so that it is only said under a promise, while anchors are
settled in any case.

Fitting fragments can be joined to fitting fragments. What fits renders, to a text that fits in the
same place (`Fits.renderWithin`), and an anchor whose replacement fits is settled
(`Fits.settled_of`).
-/

namespace EntitySql.Sql

variable {t : AnchorTable} {p : Promise} {a b c : Nat}

/-- The anchor renders, to a text that fits wherever a value fits. -/
def AnchorTable.Settled (t : AnchorTable) (p : Promise) (id : AnchorId) : Prop :=
  ∃ x, t.renderSegment t.size (.anchor id) = .ok x ∧ p.Admits 0 0 (textSymbols x)

/-- The anchors of the fragment are settled, and it leads from a place with `a` open parentheses to
one with `b`. -/
structure Fits (t : AnchorTable) (p : Promise) (a b : Nat) (fragment : Fragment) : Prop where
  settled : ∀ id, fragment.Mentions id → t.Settled p id
  admits : p.Admits a b fragment.symbols

/-- The fragment has no anchors and takes `a` open parentheses to `b`, and no comment begins in
it. -/
def Fragment.Fixed (a b : Nat) (fragment : Fragment) : Prop :=
  (Shifts a b fragment.symbols ∧ Passes fragment.symbols) ∧ fragment.hasAnchors = false

instance (fragment : Fragment) : Decidable (fragment.Fixed a b) :=
  inferInstanceAs (Decidable (_ ∧ _))

namespace Fits

variable {f g : Fragment}

theorem empty : Fits t p a a .empty :=
  ⟨fun _ h => absurd h List.not_mem_nil, .nil⟩

/-- A text fits if it is in order by itself. -/
theorem ofText {x : String} (h : p.Admits a b (textSymbols x)) :
    Fits t p a b (Fragment.ofText x) := by
  constructor
  · intro id hid
    rw [Fragment.Mentions, Fragment.symbols_ofText] at hid
    exact absurd hid anchor_notMem_textSymbols
  · rwa [Fragment.symbols_ofText]

/-- An anchor fits if it is settled. -/
theorem ofAnchor {id : AnchorId} (h : t.Settled p id) : Fits t p a a (Fragment.ofAnchor id) := by
  constructor
  · intro other hid
    rw [Fragment.Mentions, Fragment.symbols_ofAnchor, List.mem_singleton] at hid
    obtain rfl := Symbol.anchor.inj hid
    exact h
  · rw [Fragment.symbols_ofAnchor]
    exact Promise.admits_of_both ⟨.anchor id, rfl⟩

/-- Fragments that fit can be put together. -/
theorem append (hf : Fits t p a b f) (hg : Fits t p b c g) : Fits t p a c (f ++ g) := by
  constructor
  · intro id hid
    rw [Fragment.Mentions, Fragment.symbols_append, List.mem_append] at hid
    exact hid.elim (hf.settled id) (hg.settled id)
  · rw [Fragment.symbols_append]
    exact hf.admits.append hg.admits

/-- Whether a fragment fits depends on its symbols only. -/
theorem congr (hf : Fits t p a b f) (h : f.symbols = g.symbols) : Fits t p a b g := by
  obtain ⟨hsettled, hadmits⟩ := hf
  refine ⟨fun id hid => hsettled id ?_, ?_⟩
  · rwa [Fragment.Mentions, h]
  · rwa [← h]

/-- What fits at some depth fits deeper. -/
theorem lift (hf : Fits t p a b f) (k : Nat) : Fits t p (a + k) (b + k) f :=
  ⟨hf.settled, hf.admits.lift k⟩

/-- A value fits at every depth. -/
theorem anywhere (hf : Fits t p 0 0 f) : Fits t p a a f := by
  have h := hf.lift a
  rwa [Nat.zero_add] at h

/-- Two texts fit if they do when they are one. -/
theorem ofText_append {x y : String} (h : p.Admits a b (textSymbols (x ++ y))) :
    Fits t p a b (Fragment.ofText x ++ Fragment.ofText y) := by
  refine (ofText h).congr ?_
  rw [Fragment.symbols_append, Fragment.symbols_ofText, Fragment.symbols_ofText,
    Fragment.symbols_ofText, textSymbols_append]

/-- A fixed fragment fits at any depth. -/
theorem shift {k l : Nat} (h : f.Fixed k l) : Fits t p (k + a) (l + a) f := by
  refine ⟨fun id hid => ?_, Promise.admits_of_both ⟨h.1.1.lift a, h.1.2⟩⟩
  rw [Fragment.mentions_iff] at hid
  exact absurd (List.any_eq_true.2 ⟨_, hid, rfl⟩) (by rw [← Fragment.hasAnchors, h.2]; decide)

/-- A fixed text that opens and closes nothing. -/
theorem const (h : f.Fixed 0 0) : Fits t p a a f := by
  have hshift : Fits t p (0 + a) (0 + a) f := shift h
  rwa [Nat.zero_add] at hshift

/-- A fixed text that opens a parenthesis. -/
theorem opening (h : f.Fixed 0 1) : Fits t p a (a + 1) f := by
  have hshift : Fits t p (0 + a) (1 + a) f := shift h
  rwa [Nat.zero_add, Nat.add_comm] at hshift

/-- A fixed text that closes a parenthesis. -/
theorem closing (h : f.Fixed 1 0) : Fits t p (a + 1) a f := by
  have hshift : Fits t p (1 + a) (0 + a) f := shift h
  rwa [Nat.zero_add, Nat.add_comm] at hshift

/-- A fragment that fits also fits in parentheses. -/
theorem parenthesized (hf : Fits t p 0 0 f) : Fits t p a a f.parenthesized :=
  append (append (opening (by decide)) hf.anywhere) (closing (by decide))

/-- A fragment that fits also fits if it may be in parentheses. -/
theorem parenthesizedIf (hf : Fits t p 0 0 f) (condition : Bool) :
    Fits t p 0 0 (f.parenthesizedIf condition) := by
  rw [Fragment.parenthesizedIf]
  split
  · exact hf.parenthesized
  · exact hf

/-- Fragments that fit also fit with fixed separators between them. -/
theorem join {separator : String} (hs : (Fragment.ofText separator).Fixed 0 0)
    {fragments : List Fragment} (h : ∀ f ∈ fragments, Fits t p 0 0 f) :
    Fits t p 0 0 (Fragment.join separator fragments) :=
  Fragment.join_induction empty (fun _ _ hf hg => (hf.append (const hs)).append hg) h

end Fits

/-! ## What shows -/

/-- The fragment holds a character that is not blank. -/
def Fragment.Shown (fragment : Fragment) : Prop :=
  ∃ c, Symbol.char c ∈ fragment.symbols ∧ Text.isBlank c = false

namespace Fragment

variable {f g : Fragment}

theorem shown_ofText {x : String} (h : Text.isBlankText x = false) : (ofText x).Shown := by
  obtain ⟨c, hc, hblank⟩ := List.all_eq_false.1 h
  refine ⟨c, ?_, Bool.not_eq_true _ ▸ hblank⟩
  rw [symbols_ofText]
  exact char_mem_textSymbols.2 hc

theorem shown_append : (f ++ g).Shown ↔ f.Shown ∨ g.Shown := by
  simp only [Shown, symbols_append, List.mem_append, or_and_right, exists_or]

end Fragment

namespace Fits

variable {f : Fragment}

/-! ## What fits renders -/

/-- The text of a fragment fits where the fragment does, if the texts of its anchors fit wherever
a value fits. -/
theorem admits_join {texts : List String}
    (hall : List.Forall₂ (fun segment x => t.renderSegment t.size segment = .ok x) f.segments texts)
    (hf : p.Admits a b f.symbols)
    (h : ∀ id x, Segment.anchor id ∈ f.segments → t.renderSegment t.size (.anchor id) = .ok x →
      p.Admits 0 0 (textSymbols x)) : p.Admits a b (textSymbols (String.join texts)) := by
  obtain ⟨_ | _, given⟩ := p
  · refine fun hp => ⟨AnchorTable.foldlM_join hall ?_ (hf hp).nesting,
      AnchorTable.foldlM_join hall ?_ (hf hp).mark⟩
    · intro id x s u hmem hx hs
      -- an anchor is only passed in the open, where its text passes at any depth
      obtain ⟨region, depth⟩ := s
      simp only [Nesting.read, Option.ite_none_right_eq_some, Option.some.injEq] at hs
      obtain ⟨rfl, rfl⟩ := hs
      have hlift := ((h id x hmem hx hp).lift depth).nesting
      rwa [Nat.zero_add] at hlift
    · intro id x s u hmem hx hs
      -- and only where no mark has begun
      simp only [readMark, Option.ite_none_right_eq_some, Option.some.injEq] at hs
      obtain ⟨rfl, rfl⟩ := hs
      exact (h id x hmem hx hp).mark
  · refine fun hp => AnchorTable.foldlM_join hall ?_ (hf hp)
    intro id x s u hmem hx hs
    simp only [Lookout.read, Option.ite_none_right_eq_some, Option.some.injEq] at hs
    obtain ⟨rfl, rfl⟩ := hs
    exact h id x hmem hx hp

/-- A fragment that fits has a text, which fits in the same place and holds all its characters. -/
theorem renderWithin (hf : Fits t p a b f) :
    ∃ text, t.renderWithin (t.size + 1) f = .ok text
      ∧ p.Admits a b (textSymbols text)
      ∧ ∀ c, Symbol.char c ∈ f.symbols → c ∈ text.toList := by
  obtain ⟨text, htext⟩ := AnchorTable.exists_renderWithin_succ_iff.2 fun id hid =>
    (hf.settled id hid).imp fun _ h => h.1
  refine ⟨text, htext, ?_⟩
  obtain ⟨texts, hall, rfl⟩ := AnchorTable.renderWithin_succ_eq_ok.1 htext
  refine ⟨admits_join hall hf.admits fun id x hmem hx => ?_,
    fun c hc => AnchorTable.mem_join_of_char_mem hall hc⟩
  obtain ⟨y, hy, hadmits⟩ := hf.settled id (Fragment.mentions_iff.2 hmem)
  obtain rfl := Except.ok.inj (hx.symm.trans hy)
  exact hadmits

/-- The text of a fragment fits where the fragment does. -/
theorem admits_of_render (hf : Fits t p a b f) {text : String} (h : t.render f = .ok text) :
    p.Admits a b (textSymbols text) := by
  obtain ⟨x, hx, hadmits, -⟩ := hf.renderWithin
  obtain rfl := Except.ok.inj (h.symm.trans hx)
  exact hadmits

/-- An anchor whose replacement fits is settled. -/
theorem settled_of {id : AnchorId} (hf : Fits t p 0 0 f) (hr : t.resolved? id = some f) :
    t.Settled p id := by
  obtain ⟨text, htext, hadmits, -⟩ := hf.renderWithin
  -- one level deeper than its replacement, which is a level too many; but no anchor needs more
  -- levels than there are anchors
  have hrenders : t.RendersAt (t.size + 1) id :=
    AnchorTable.rendersAt_iff.2 ⟨f, hr, text, htext⟩
  obtain ⟨replacement, hr', x, hx⟩ := AnchorTable.rendersAt_iff.1 hrenders.size
  obtain rfl := Option.some.inj (hr.symm.trans hr')
  have heq := htext.symm.trans (AnchorTable.renderWithin_mono (Nat.le_succ t.size) hx)
  obtain rfl := Except.ok.inj heq
  exact ⟨text, AnchorTable.renderSegment_anchor.2 ⟨f, hr, hx⟩, hadmits⟩

end Fits

end EntitySql.Sql
