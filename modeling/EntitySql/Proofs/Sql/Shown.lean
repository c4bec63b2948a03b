import EntitySql.Proofs.Lists
import EntitySql.Proofs.Sql.NormalForm
import EntitySql.Proofs.Sql.Template
import Mathlib.Tactic.TautoSet

/-!
# The texts that a fragment shows

A fragment shows a text if the text stands in the SQL that the fragment renders to. Whatever is
built around a fragment shows what the fragment shows, and an anchor shows what its replacement
shows. Only distinctive texts count here: a predicate leaves some comparisons out, and may do so
because no distinctive text stands in them.
-/

namespace EntitySql

namespace Sql

/-- The text stands somewhere in another one. -/
def Occurs (x text : String) : Prop :=
  ∃ before after, text = before ++ x ++ after

theorem Occurs.append_left {x text : String} (h : Occurs x text) (y : String) :
    Occurs x (y ++ text) := by
  obtain ⟨before, after, rfl⟩ := h
  exact ⟨y ++ before, after, by simp only [String.append_assoc]⟩

theorem Occurs.append_right {x text : String} (h : Occurs x text) (y : String) :
    Occurs x (text ++ y) := by
  obtain ⟨before, after, rfl⟩ := h
  exact ⟨before, after ++ y, by simp only [String.append_assoc]⟩

/-- A text in which a distinctive one stands is distinctive. -/
theorem Occurs.distinctive {x text : String} (h : Occurs x text) (hx : Distinctive x) :
    Distinctive text := by
  obtain ⟨before, after, rfl⟩ := h
  refine hx.of_subset fun c hc => ?_
  simp [hc]

namespace AnchorTable

/-- The distinctive texts that stand in the SQL of a fragment. -/
def shown (t : AnchorTable) (f : Fragment) : Set String :=
  {x | Distinctive x ∧ ∀ sql, t.render f = .ok sql → Occurs x sql}

/-- The distinctive texts that stand in the SQL of one of the fragments. -/
def shownAll (t : AnchorTable) (fs : List Fragment) : Set String :=
  {x | ∃ f ∈ fs, x ∈ t.shown f}

variable {t : AnchorTable} {f g : Fragment} {fs gs : List Fragment} {x : String}

/-! ## Fragments one behind the other -/

/-- Appending hides nothing. -/
theorem shown_append_left : t.shown f ⊆ t.shown (f ++ g) := by
  rintro x ⟨hx, h⟩
  refine ⟨hx, fun sql hsql => ?_⟩
  obtain ⟨y, z, hy, -, rfl⟩ := render_append_eq_ok.1 hsql
  exact (h y hy).append_right z

/-- What is appended is shown. -/
theorem shown_append_right : t.shown g ⊆ t.shown (f ++ g) := by
  rintro x ⟨hx, h⟩
  refine ⟨hx, fun sql hsql => ?_⟩
  obtain ⟨y, z, -, hz, rfl⟩ := render_append_eq_ok.1 hsql
  exact (h z hz).append_left y

/-- What is to be found in two fragments, one behind the other, may be looked for in the first one
only if it is not in the second. -/
theorem mem_shown_append (h : x ∉ t.shown g → x ∈ t.shown f) : x ∈ t.shown (f ++ g) := by
  by_cases hg : x ∈ t.shown g
  · exact shown_append_right hg
  · exact shown_append_left (h hg)

/-- Parentheses hide nothing. -/
theorem shown_parenthesized : t.shown f ⊆ t.shown f.parenthesized :=
  fun _ hx => shown_append_left (shown_append_right hx)

theorem shown_parenthesizedIf {condition : Bool} :
    t.shown f ⊆ t.shown (f.parenthesizedIf condition) := by
  cases condition with
  | false => exact subset_rfl
  | true => exact shown_parenthesized

/-- What a fragment shows depends on its symbols only. -/
theorem shown_congr (h : f.symbols = g.symbols) : t.shown f ⊆ t.shown g := by
  have hnormal (f : Fragment) : (Fragment.empty ++ f).IsNormal := Fragment.isNormal_empty.append f
  have hsame : Fragment.empty ++ f = Fragment.empty ++ g := by
    refine (hnormal f).eq_of_symbols (hnormal g) ?_
    rw [Fragment.symbols_append, Fragment.symbols_append, h]
  rintro x ⟨hx, hf⟩
  refine ⟨hx, fun sql hsql => hf sql ?_⟩
  have hg := render_append render_empty hsql
  rw [← hsame] at hg
  obtain ⟨y, z, hy, hz, htext⟩ := render_append_eq_ok.1 hg
  rw [render_empty] at hy
  obtain rfl := Except.ok.inj hy
  rw [String.empty_append, String.empty_append] at htext
  rw [hz, htext]

/-- A distinctive text shows itself. -/
theorem mem_shown_ofText (hx : Distinctive x) : x ∈ t.shown (.ofText x) := by
  refine ⟨hx, fun sql hsql => ?_⟩
  rw [render_ofText] at hsql
  obtain rfl := Except.ok.inj hsql
  exact ⟨"", "", by simp⟩

/-- An anchor shows what its replacement shows. -/
theorem shown_ofAnchor {id : AnchorId} (h : t.resolved? id = some f) :
    t.shown f ⊆ t.shown (.ofAnchor id) := by
  rintro x ⟨hx, hf⟩
  refine ⟨hx, fun sql hsql => hf sql ?_⟩
  obtain ⟨texts, hall, rfl⟩ := renderWithin_succ_eq_ok.1 hsql
  obtain ⟨y, rest, hy, hrest, rfl⟩ := List.forall₂_cons_left_iff.1 hall
  obtain rfl := List.forall₂_nil_left_iff.1 hrest
  obtain ⟨replacement, hr, hy⟩ := renderSegment_anchor.1 hy
  obtain rfl : f = replacement := Option.some.inj (h.symm.trans hr)
  rw [String.join_cons, String.join_nil, String.append_empty]
  exact render_eq_of_renderWithin hy

/-! ## Lists of fragments -/

@[simp]
theorem shownAll_nil : t.shownAll [] = ∅ := by
  simp [shownAll]

@[simp]
theorem shownAll_cons : t.shownAll (f :: fs) = t.shown f ∪ t.shownAll fs := by
  ext x
  simp [shownAll]

theorem shownAll_singleton : t.shownAll [f] = t.shown f := by
  simp

@[simp]
theorem shownAll_append : t.shownAll (fs ++ gs) = t.shownAll fs ∪ t.shownAll gs := by
  ext x
  simp [shownAll, or_and_right, exists_or]

/-- Fragments one behind the other show what each of them shows. -/
theorem shownAll_subset_foldl (f : Fragment) (fs : List Fragment) :
    t.shownAll (f :: fs) ⊆ t.shown (fs.foldl (· ++ ·) f) := by
  induction fs generalizing f with
  | nil => simp
  | cons g fs ih =>
    have hrest := ih (f ++ g)
    have hl := shown_append_left (t := t) (f := f) (g := g)
    have hr := shown_append_right (t := t) (f := f) (g := g)
    simp only [shownAll_cons] at hrest ⊢
    exact subset_trans (by tauto_set) hrest

/-- What hides nothing in single fragments hides nothing in all. -/
theorem shownAll_subset_map {g : Fragment → Fragment} (h : ∀ f, t.shown f ⊆ t.shown (g f)) :
    t.shownAll fs ⊆ t.shownAll (fs.map g) := by
  rintro x ⟨f, hf, hx⟩
  exact ⟨g f, List.mem_map_of_mem hf, h f hx⟩

/-- Fragments that are made of those of two lists, in pairs, show what these show. -/
theorem shownAll_subset_zipWith {g : Fragment → Fragment → Fragment}
    (hlength : fs.length = gs.length) (hl : ∀ f h, t.shown f ⊆ t.shown (g f h))
    (hr : ∀ f h, t.shown h ⊆ t.shown (g f h)) :
    t.shownAll fs ∪ t.shownAll gs ⊆ t.shownAll (List.zipWith g fs gs) := by
  induction fs generalizing gs with
  | nil =>
    obtain rfl := List.eq_nil_of_length_eq_zero hlength.symm
    simp
  | cons f fs ih =>
    obtain ⟨h, gs, rfl⟩ := List.exists_cons_of_length_eq_add_one hlength.symm
    have hrest := ih (Nat.succ.inj hlength)
    simp only [List.zipWith_cons_cons, shownAll_cons]
    rintro x ((hx | hx) | (hx | hx))
    · exact .inl (hl f h hx)
    · exact .inr (hrest (.inl hx))
    · exact .inl (hr f h hx)
    · exact .inr (hrest (.inr hx))

/-- Separators hide nothing. -/
theorem shownAll_subset_join {separator : String} :
    t.shownAll fs ⊆ t.shown (Fragment.join separator fs) := by
  cases fs with
  | nil => simp
  | cons first rest =>
    rw [Fragment.join]
    simp only [shownAll_cons]
    -- the fragment that the rest is put behind grows from the first one
    induction rest generalizing first with
    | nil => simp
    | cons next rest ih =>
      rw [List.foldl_cons]
      simp only [shownAll_cons]
      rintro x (hx | hx | hx)
      · exact ih _ (.inl (shown_append_left (shown_append_left hx)))
      · exact ih _ (.inl (shown_append_right hx))
      · exact ih _ (.inr hx)

/-! ## Predicates -/

/-- A predicate shows what its comparisons show. -/
theorem shown_predicate {predicate : Predicate} (comparison : Comparison)
    (h : comparison ∈ predicate.comparisons) :
    t.shown comparison.lhs ∪ t.shown comparison.rhs ⊆ t.shown predicate.sql := by
  have hcomparison : t.shown comparison.lhs ∪ t.shown comparison.rhs
      ⊆ t.shown comparison.sql := by
    rintro x (hx | hx)
    · exact shown_append_left (shown_append_left hx)
    · exact shown_append_right hx
  rw [Predicate.sql, if_neg (by simpa using List.ne_nil_of_mem h)]
  refine hcomparison.trans fun x hx => shown_parenthesizedIf (shownAll_subset_join ?_)
  exact ⟨_, List.mem_map_of_mem h, hx⟩

/-- A text that is not distinctive shows nothing. -/
theorem notMem_shown_of_text? {text : String} (htext : f.text? = some text)
    (hplain : ¬Distinctive text) : x ∉ t.shown f := by
  rintro ⟨hx, h⟩
  refine hplain ((h text ?_).distinctive hx)
  rw [Fragment.text?] at htext
  rw [render, renderWithin_succ_eq_ok]
  split at htext
  next hsegments =>
    obtain rfl := Option.some.inj htext
    exact ⟨[], hsegments ▸ .nil, rfl⟩
  next y hsegments =>
    obtain rfl := Option.some.inj htext
    exact ⟨[y], hsegments ▸ .cons rfl .nil, by simp [String.join_cons]⟩
  next => cases htext

/-- What a comparison that is left out is about shows nothing. -/
theorem notMem_shown_of_isRedundant (h : Predicate.isRedundant f g = true) :
    x ∉ t.shown f ∧ x ∉ t.shown g := by
  rw [Predicate.isRedundant, Bool.and_eq_true, Option.any_eq_true, Bool.or_eq_true,
    decide_eq_true_iff, decide_eq_true_iff] at h
  obtain ⟨⟨text, htext, hsame⟩, hnull⟩ := h
  constructor
  · refine notMem_shown_of_text? htext fun hdistinctive => ?_
    rw [hdistinctive.not_sameName] at hsame
    cases hsame
  · rcases hnull with htext | htext
    · exact notMem_shown_of_text? htext fun h => h.ne_null.1 rfl
    · exact notMem_shown_of_text? htext fun h => h.ne_null.2 rfl

/-- A comparison of two values shows what the values show. -/
theorem shownAll_subset_compound {op : BooleanOperator} {parenthesized : Bool}
    (hlength : fs.length = gs.length) :
    t.shownAll fs ∪ t.shownAll gs ⊆ t.shown (Predicate.compound fs op gs parenthesized).sql := by
  intro x hx
  -- the value stands in a pair, which is left out only if it shows nothing
  obtain ⟨pair, hpair, hx⟩ : ∃ pair ∈ fs.zip gs, x ∈ t.shown pair.1 ∪ t.shown pair.2 := by
    rcases hx with ⟨f, hf, hx⟩ | ⟨g, hg, hx⟩
    · obtain ⟨g, hpair⟩ := exists_mem_zip_left (le_of_eq hlength) hf
      exact ⟨(f, g), hpair, .inl hx⟩
    · obtain ⟨f, hpair⟩ := exists_mem_zip_right (le_of_eq hlength.symm) hg
      exact ⟨(f, g), hpair, .inr hx⟩
  have hkept : (!Predicate.isRedundant pair.1 pair.2) = true := by
    rw [Bool.not_eq_true', Bool.eq_false_iff]
    intro hredundant
    obtain ⟨hl, hr⟩ := notMem_shown_of_isRedundant (t := t) (x := x) hredundant
    exact hx.elim hl hr
  refine shown_predicate ⟨pair.1, op, pair.2⟩ ?_ hx
  exact List.mem_map.2 ⟨pair, List.mem_filter.2 ⟨hpair, hkept⟩, rfl⟩

/-- Comparisons show both sides of each pair. -/
theorem shown_quantified {pairs : List (Fragment × Fragment)} {pair : Fragment × Fragment}
    {op : ComparisonOperator} {quantifier : Quantifier} (h : pair ∈ pairs) :
    t.shown pair.1 ⊆ t.shown (Predicate.quantified pairs op quantifier).sql := by
  intro x hx
  cases quantifier with
  | all =>
    exact shown_predicate ⟨pair.1, .comparison op.negate, pair.2⟩
      (List.mem_map.2 ⟨pair, h, rfl⟩) (.inl hx)
  | any | some =>
    exact shown_predicate ⟨pair.1, .comparison op, pair.2⟩
      (List.mem_map.2 ⟨pair, h, rfl⟩) (.inl hx)

end AnchorTable

end Sql

end EntitySql
