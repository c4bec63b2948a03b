import EntitySql.Proofs.Sql.Symbol
import EntitySql.Sql.Predicate
import Mathlib.Data.List.Forall2

/-!
# Templates

A template is text with holes in it. Two texts that come from one template, with the holes filled in
two ways, have the same fixed pieces in the same order (`FromTemplate`). Fragments are alike if they
have the same anchors and the texts between them come from one template. Putting fragments together
keeps them alike, however their texts are merged. The anchors of the second fragment may have other
numbers, all of them moved by the same `gap`.

Lowering looks at the text of a fragment in one place only: a comparison with `NULL` is left out for
one particular column (`Predicate.isRedundant`). If what fills the holes is `Distinctive`, a text
with a hole in it is neither this column nor `NULL`.
-/

namespace EntitySql.Sql

variable {η κ : Type}

/-- A piece of a template. -/
inductive Piece (η : Type) where
  | fixed (text : String)
  | hole (h : η)

/-- Text with holes in it. -/
structure Template (η : Type) where
  pieces : List (Piece η)

/-- The text of a piece, once its hole is filled. -/
def Piece.text (value : η → String) : Piece η → String
  | .fixed text => text
  | .hole h => value h

/-- The piece with a template in the place of its hole. -/
def Piece.bind (inner : η → Template κ) : Piece η → Template κ
  | .fixed text => ⟨[.fixed text]⟩
  | .hole h => inner h

namespace Template

/-- The text of a template, once its holes are filled. -/
def fill (template : Template η) (value : η → String) : String :=
  template.pieces.foldr (fun piece rest => piece.text value ++ rest) ""

instance instAppend : Append (Template η) := ⟨fun a b => ⟨a.pieces ++ b.pieces⟩⟩

/-- The template with a template in the place of each hole. -/
def bind (template : Template η) (inner : η → Template κ) : Template κ :=
  ⟨template.pieces.flatMap fun piece => (piece.bind inner).pieces⟩

variable {value : η → String}

theorem fill_cons (piece : Piece η) (pieces : List (Piece η)) :
    fill ⟨piece :: pieces⟩ value = piece.text value ++ fill ⟨pieces⟩ value :=
  rfl

theorem fill_singleton (piece : Piece η) : fill ⟨[piece]⟩ value = piece.text value :=
  String.append_empty

/-- Templates are filled piece by piece. -/
theorem fill_append (a b : Template η) : (a ++ b).fill value = a.fill value ++ b.fill value := by
  obtain ⟨pieces⟩ := a
  show fill ⟨pieces ++ b.pieces⟩ value = _
  induction pieces with
  | nil => exact String.empty_append.symm
  | cons piece pieces ih => rw [List.cons_append, fill_cons, ih, fill_cons, String.append_assoc]

/-- Filling holes with templates and then filling those is filling once. -/
theorem fill_bind (template : Template η) (inner : η → Template κ) (value : κ → String) :
    (template.bind inner).fill value = template.fill fun h => (inner h).fill value := by
  obtain ⟨pieces⟩ := template
  induction pieces with
  | nil => rfl
  | cons piece pieces ih =>
    have hcons : bind ⟨piece :: pieces⟩ inner = piece.bind inner ++ bind ⟨pieces⟩ inner := by
      rw [bind, List.flatMap_cons]
      rfl
    have hpiece : (piece.bind inner).fill value
        = piece.text fun h => (inner h).fill value := by
      cases piece with
      | fixed text => exact fill_singleton _
      | hole h => rfl
    rw [hcons, fill_append, ih, hpiece, fill_cons]

/-- Without holes, a template is the same text however it is filled. With one, the text has the
characters of what fills it. -/
theorem fill_eq_or_exists_subset (template : Template η) (first second : η → String) :
    template.fill first = template.fill second
      ∨ ∃ h, (first h).toList ⊆ (template.fill first).toList
        ∧ (second h).toList ⊆ (template.fill second).toList := by
  obtain ⟨pieces⟩ := template
  induction pieces with
  | nil => exact .inl rfl
  | cons piece pieces ih =>
    rw [fill_cons, fill_cons]
    cases piece with
    | hole h =>
      refine .inr ⟨h, ?_⟩
      rw [String.toList_append, String.toList_append]
      exact ⟨List.subset_append_left .., List.subset_append_left ..⟩
    | fixed text =>
      rcases ih with heq | ⟨h, hfirst, hsecond⟩
      · exact .inl (congrArg (text ++ ·) heq)
      · refine .inr ⟨h, ?_⟩
        rw [String.toList_append, String.toList_append]
        exact ⟨List.Subset.trans hfirst (List.subset_append_right ..),
          List.Subset.trans hsecond (List.subset_append_right ..)⟩

end Template

/-! ## Texts from one template -/

/-- The texts come from one template, with the holes filled in two ways. -/
def FromTemplate (first second : η → String) (a b : String) : Prop :=
  ∃ template : Template η, a = template.fill first ∧ b = template.fill second

namespace FromTemplate

variable {first second : η → String} {a b a' b' : String}

/-- A text without holes is a template for itself. -/
theorem refl (a : String) : FromTemplate first second a a :=
  ⟨⟨[.fixed a]⟩, (Template.fill_singleton (.fixed a)).symm, (Template.fill_singleton (.fixed a)).symm⟩

/-- A hole is a template for what it is filled with. -/
theorem hole (h : η) : FromTemplate first second (first h) (second h) :=
  ⟨⟨[.hole h]⟩, (Template.fill_singleton (.hole h)).symm, (Template.fill_singleton (.hole h)).symm⟩

/-- Templates can be put together. -/
theorem append (h : FromTemplate first second a b) (h' : FromTemplate first second a' b') :
    FromTemplate first second (a ++ a') (b ++ b') := by
  obtain ⟨t, rfl, rfl⟩ := h
  obtain ⟨t', rfl, rfl⟩ := h'
  exact ⟨t ++ t', (Template.fill_append t t').symm, (Template.fill_append t t').symm⟩

/-- Templates can be put together with separators. -/
theorem intercalate (separator : String) {texts texts' : List String}
    (h : List.Forall₂ (FromTemplate first second) texts texts') :
    FromTemplate first second (separator.intercalate texts) (separator.intercalate texts') := by
  induction h with
  | nil => exact refl _
  | cons hx hrest ih =>
    cases hrest with
    | nil =>
      rw [String.intercalate_singleton, String.intercalate_singleton]
      exact hx
    | cons =>
      rw [String.intercalate_cons_cons, String.intercalate_cons_cons]
      exact (hx.append (refl separator)).append ih

/-- What fills the holes can itself come from templates. -/
theorem bind {first' second' : κ → String} (h : FromTemplate first second a b)
    (hinner : ∀ x, FromTemplate first' second' (first x) (second x)) :
    FromTemplate first' second' a b := by
  obtain ⟨t, rfl, rfl⟩ := h
  choose inner hfirst hsecond using hinner
  refine ⟨t.bind inner, ?_, ?_⟩
  · rw [Template.fill_bind, ← funext hfirst]
  · rw [Template.fill_bind, ← funext hsecond]

end FromTemplate

/-- A text that can be neither `NULL` nor the column for which a comparison with `NULL` is left out,
because it has a character that they do not have. -/
def Distinctive (text : String) : Prop :=
  ∃ c ∈ text.toList, c.toLower ∉ Text.folded Predicate.parentClassColumn ∧ c ∉ "(NULL)".toList

/-- A text with a distinctive one in it is distinctive. -/
theorem Distinctive.of_subset {a b : String} (h : Distinctive a) (hsub : a.toList ⊆ b.toList) :
    Distinctive b := by
  obtain ⟨c, hc, hother⟩ := h
  exact ⟨c, hsub hc, hother⟩

/-- A distinctive text is no name of the column that stands for the parent class. -/
theorem Distinctive.not_sameName {text : String} (h : Distinctive text) :
    Text.sameName text Predicate.parentClassColumn = false := by
  obtain ⟨c, hc, hcolumn, -⟩ := h
  refine Bool.eq_false_iff.2 fun hsame => hcolumn ?_
  rw [← Text.sameName_iff.1 hsame]
  exact List.mem_map_of_mem hc

/-- A distinctive text is not `NULL`. -/
theorem Distinctive.ne_null {text : String} (h : Distinctive text) :
    text ≠ "NULL" ∧ text ≠ "(NULL)" := by
  obtain ⟨c, hc, -, hnull⟩ := h
  constructor
  · rintro rfl
    exact hnull ((show "NULL".toList ⊆ "(NULL)".toList by decide) hc)
  · rintro rfl
    exact hnull hc

theorem Distinctive.ne_empty {text : String} (h : Distinctive text) : text ≠ "" := by
  obtain ⟨c, hc, -⟩ := h
  rintro rfl
  cases hc

/-- Two ways to fill holes, with texts that are distinctive. -/
structure Fillings where
  Hole : Type
  first : Hole → String
  second : Hole → String
  distinctive_first : ∀ h, Distinctive (first h)
  distinctive_second : ∀ h, Distinctive (second h)
  /-- The number of the first anchor that is compared. -/
  base : Nat := 0
  /-- How much higher the numbers of anchors are on the second side. -/
  gap : Nat := 0

namespace Fillings

/-- The texts come from one template, filled in the two ways. -/
abbrev Alike (F : Fillings) : String → String → Prop :=
  FromTemplate F.first F.second

variable {F : Fillings}

theorem alike_hole (F : Fillings) (h : F.Hole) : F.Alike (F.first h) (F.second h) :=
  .hole h

/-- Texts that are alike are the same, or a hole shows in both. -/
theorem Alike.eq_or_distinctive {a b : String} (h : F.Alike a b) :
    a = b ∨ Distinctive a ∧ Distinctive b := by
  obtain ⟨t, rfl, rfl⟩ := h
  rcases t.fill_eq_or_exists_subset F.first F.second with heq | ⟨h, hfirst, hsecond⟩
  · exact .inl heq
  · exact .inr ⟨(F.distinctive_first h).of_subset hfirst,
      (F.distinctive_second h).of_subset hsecond⟩

/-- Texts that are alike are empty together, since holes are filled with something. -/
theorem Alike.eq_empty_iff {a b : String} (h : F.Alike a b) : a = "" ↔ b = "" := by
  rcases h.eq_or_distinctive with rfl | ⟨ha, hb⟩
  · exact Iff.rfl
  · exact iff_of_false ha.ne_empty hb.ne_empty

/-! ## Fragments -/

end Fillings

/-- The fragment has no anchors. A class, as this is evident from how the fragment is written. -/
class Fragment.Anchorless (f : Fragment) : Prop where
  not_mentions : ∀ id, ¬f.Mentions id

namespace Fragment.Anchorless

instance empty : Fragment.empty.Anchorless :=
  ⟨fun _ h => nomatch h⟩

instance ofText (text : String) : (Fragment.ofText text).Anchorless := by
  refine ⟨fun id h => ?_⟩
  rw [Mentions, symbols_ofText] at h
  exact anchor_notMem_textSymbols h

instance append (f g : Fragment) [f.Anchorless] [g.Anchorless] : (f ++ g).Anchorless := by
  refine ⟨fun id h => ?_⟩
  rw [Mentions, symbols_append, List.mem_append] at h
  exact h.elim (not_mentions id) (not_mentions id)

instance ite (c : Prop) [Decidable c] (f g : Fragment) [f.Anchorless] [g.Anchorless] :
    (if c then f else g).Anchorless := by
  split <;> infer_instance

end Fragment.Anchorless

namespace Fillings

variable {F : Fillings}

/-- The second anchor is the first one, moved. -/
structure AnchorsAlike (F : Fillings) (id id' : AnchorId) : Prop where
  base_le : F.base ≤ id.index
  moved : id'.index = id.index + F.gap

/-- The segments are anchors or texts that are alike. -/
inductive SegmentsAlike (F : Fillings) : Segment → Segment → Prop
  | text {a b : String} (h : F.Alike a b) : SegmentsAlike F (.text a) (.text b)
  | anchor {id id' : AnchorId} (h : F.AnchorsAlike id id') :
    SegmentsAlike F (.anchor id) (.anchor id')

/-- The fragments have the same anchors, and texts that are alike between them. -/
def FragmentsAlike (F : Fillings) (f g : Fragment) : Prop :=
  List.Forall₂ F.SegmentsAlike f.segments g.segments

/-- The columns are alike, one by one. -/
abbrev ColumnsAlike (F : Fillings) : Columns → Columns → Prop :=
  List.Forall₂ F.FragmentsAlike

/-- Texts that are alike go on segments that are alike. -/
theorem forall₂_appendText {a b : String} (h : F.Alike a b) {l l' : List Segment}
    (hl : List.Forall₂ F.SegmentsAlike l l') :
    List.Forall₂ F.SegmentsAlike (appendText a l) (appendText b l') := by
  induction hl with
  | nil => exact .cons (.text h) .nil
  | @cons s s' l l' hs hl ih =>
    cases hs with
    | anchor hid => exact .cons (.anchor hid) ih
    | text hab =>
      cases hl with
      | nil => exact .cons (.text (hab.append h)) .nil
      | cons hs' hl => exact .cons (.text hab) ih

namespace FragmentsAlike

theorem empty : F.FragmentsAlike .empty .empty :=
  .nil

/-- Alike texts make alike fragments. -/
theorem ofText {a b : String} (h : F.Alike a b) : F.FragmentsAlike a b := by
  unfold Fragment.ofText
  by_cases ha : a = ""
  · rw [if_pos ha, if_pos (h.eq_empty_iff.1 ha)]
    exact .nil
  · rw [if_neg ha, if_neg fun hb => ha (h.eq_empty_iff.2 hb)]
    exact .cons (.text h) .nil

/-- Without holes and anchors, a fragment is the same on both sides. -/
theorem refl (f : Fragment) [f.Anchorless] : F.FragmentsAlike f f := by
  refine List.forall₂_same.2 fun segment hsegment => ?_
  cases segment with
  | text a => exact .text (.refl a)
  | anchor id =>
    have hmentions : f.Mentions id := List.mem_flatMap.2 ⟨_, hsegment, List.mem_singleton_self _⟩
    exact absurd hmentions (Fragment.Anchorless.not_mentions id)

/-- Where all anchors are compared and keep their numbers, every fragment is like itself. -/
theorem same (hbase : F.base = 0) (hgap : F.gap = 0) (f : Fragment) : F.FragmentsAlike f f := by
  refine List.forall₂_same.2 fun segment _ => ?_
  cases segment with
  | text a => exact .text (.refl a)
  | anchor id => exact .anchor ⟨by omega, by omega⟩

theorem ofAnchor {id id' : AnchorId} (h : F.AnchorsAlike id id') :
    F.FragmentsAlike (.ofAnchor id) (.ofAnchor id') :=
  .cons (.anchor h) .nil

/-- Alike segments go on alike fragments. -/
theorem push {f g : Fragment} (h : F.FragmentsAlike f g) {s s' : Segment}
    (hs : F.SegmentsAlike s s') : F.FragmentsAlike (f.push s) (g.push s') := by
  cases hs with
  | anchor hid => exact List.rel_append h (.cons (.anchor hid) .nil)
  | @text a b hab =>
    unfold Fragment.push
    by_cases ha : a = ""
    · simp only [if_pos ha, if_pos (hab.eq_empty_iff.1 ha)]
      exact h
    · simp only [if_neg ha, if_neg fun hb => ha (hab.eq_empty_iff.2 hb)]
      exact forall₂_appendText hab h

/-- Alike fragments can be put together. -/
theorem append {f g f' g' : Fragment} (h : F.FragmentsAlike f g) (h' : F.FragmentsAlike f' g') :
    F.FragmentsAlike (f ++ f') (g ++ g') := by
  show F.FragmentsAlike (f'.segments.foldl Fragment.push f) (g'.segments.foldl Fragment.push g)
  obtain ⟨l⟩ := f'
  obtain ⟨l'⟩ := g'
  change List.Forall₂ F.SegmentsAlike l l' at h'
  induction h' generalizing f g with
  | nil => exact h
  | cons hs _ ih => exact ih (h.push hs)

/-- Alike fragments are alike in parentheses. -/
theorem parenthesized {f g : Fragment} (h : F.FragmentsAlike f g) :
    F.FragmentsAlike f.parenthesized g.parenthesized :=
  ((refl _).append h).append (refl _)

theorem parenthesizedIf {f g : Fragment} (h : F.FragmentsAlike f g) (condition : Bool) :
    F.FragmentsAlike (f.parenthesizedIf condition) (g.parenthesizedIf condition) := by
  cases condition with
  | false => exact h
  | true => exact h.parenthesized

/-- Alike fragments are alike with separators. -/
theorem join (separator : String) {fs gs : List Fragment} (h : F.ColumnsAlike fs gs) :
    F.FragmentsAlike (.join separator fs) (.join separator gs) := by
  cases h with
  | nil => exact .nil
  | @cons f g fs gs hfg hrest =>
    show F.FragmentsAlike (fs.foldl (fun joined next => joined ++ separator ++ next) f)
      (gs.foldl (fun joined next => joined ++ separator ++ next) g)
    induction hrest generalizing f g with
    | nil => exact hfg
    | cons hnext _ ih => exact ih ((hfg.append (refl _)).append hnext)

/-- Only one of two fragments that are alike can have a text without anchors if both do. -/
theorem text? {f g : Fragment} (h : F.FragmentsAlike f g) : Option.Rel F.Alike f.text? g.text? := by
  obtain ⟨l⟩ := f
  obtain ⟨l'⟩ := g
  cases h with
  | nil => exact .some (.refl "")
  | cons hs hrest =>
    cases hrest with
    | nil =>
      cases hs with
      | anchor id => exact .none
      | text hab => exact .some hab
    | cons hs' hrest => cases hs <;> exact .none

end FragmentsAlike

/-- Whether a comparison is left out does not depend on how the holes are filled. -/
theorem isRedundant_eq {f g f' g' : Fragment} (h : F.FragmentsAlike f g)
    (h' : F.FragmentsAlike f' g') : Predicate.isRedundant f f' = Predicate.isRedundant g g' := by
  have hcolumn : f.text?.any (Text.sameName · Predicate.parentClassColumn)
      = g.text?.any (Text.sameName · Predicate.parentClassColumn) := by
    have hrel := h.text?
    generalize f.text? = x at hrel ⊢
    generalize g.text? = y at hrel ⊢
    cases hrel with
    | none => rfl
    | some hab =>
      rcases hab.eq_or_distinctive with rfl | ⟨ha, hb⟩
      · rfl
      · exact ha.not_sameName.trans hb.not_sameName.symm
  have hnull : (f'.text? = some "NULL" ∨ f'.text? = some "(NULL)")
      ↔ (g'.text? = some "NULL" ∨ g'.text? = some "(NULL)") := by
    have hrel := h'.text?
    generalize f'.text? = x at hrel ⊢
    generalize g'.text? = y at hrel ⊢
    cases hrel with
    | none => exact Iff.rfl
    | some hab =>
      rcases hab.eq_or_distinctive with rfl | ⟨ha, hb⟩
      · exact Iff.rfl
      · simp [ha.ne_null, hb.ne_null]
  simp only [Predicate.isRedundant, hcolumn, ← Bool.decide_or, hnull]

end Fillings

end EntitySql.Sql
