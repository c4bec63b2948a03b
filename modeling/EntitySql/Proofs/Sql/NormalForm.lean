import EntitySql.Proofs.Sql.Render
import Mathlib.Data.List.Chain

/-!
# The normal form of fragments

Whatever is put together from texts and anchors has no empty text in it, and between any two of its
texts there is an anchor. `IsNormal.push` shows this for one more segment at the end, and all other
ways to put fragments together come down to it. A fragment of this form is the only one with its
symbols (`IsNormal.eq_of_symbols`). So an equation between fragments holds if it does between their
symbols, where nothing is merged or dropped: appending is associative, and a fragment without
anchors is a text by itself.
-/

namespace EntitySql.Sql

/-! ## One more text -/

section AppendText

variable {segments rest : List Segment}

/-- Text is appended to the last segments only. -/
theorem appendText_append (x : String) (h : rest ≠ []) :
    appendText x (segments ++ rest) = segments ++ appendText x rest := by
  induction segments with
  | nil => rfl
  | cons segment segments ih =>
    have hne : segments ++ rest ≠ [] := List.append_ne_nil_of_right_ne_nil _ h
    rw [List.cons_append, appendText, ih, List.cons_append]
    exact fun _ _ hnil => hne hnil

/-- Text is put together with text. -/
theorem appendText_concat_text (x y : String) :
    appendText x (segments ++ [.text y]) = segments ++ [.text (y ++ x)] :=
  appendText_append x (List.cons_ne_nil _ _)

/-- Text behind an anchor is a segment of its own. -/
theorem appendText_concat_anchor (x : String) (id : AnchorId) :
    appendText x (segments ++ [.anchor id]) = segments ++ [.anchor id] ++ [.text x] := by
  rw [appendText_append x (List.cons_ne_nil _ _), List.append_assoc]
  rfl

end AppendText

/-- One of the two segments is an anchor. -/
def Segment.Apart : Segment → Segment → Prop
  | .text _, .text _ => False
  | _, _ => True

theorem Segment.apart_anchor (a : Segment) (id : AnchorId) : a.Apart (.anchor id) := by
  cases a <;> trivial

/-- Whether a segment stands apart from text does not depend on the text. -/
theorem Segment.Apart.text {a : Segment} {x : String} (h : a.Apart (.text x)) (y : String) :
    a.Apart (.text y) := by
  cases a <;> exact h

namespace Fragment

variable {f : Fragment} {x : String}

/-! ## Putting fragments together -/

/-- The fragments that can be made of texts and anchors. -/
inductive Built : Fragment → Prop
  | empty : Built .empty
  | ofText (x : String) : Built (.ofText x)
  | ofAnchor (id : AnchorId) : Built (.ofAnchor id)
  | push {f : Fragment} (hf : Built f) (segment : Segment) : Built (f.push segment)
  | append {f g : Fragment} (hf : Built f) (hg : Built g) : Built (f ++ g)
  | parenthesized {f : Fragment} (hf : Built f) : Built f.parenthesized
  | join {fragments : List Fragment} (separator : String) (h : ∀ f ∈ fragments, Built f) :
    Built (.join separator fragments)

/-- No text is empty, and no two texts are next to each other. -/
structure IsNormal (f : Fragment) : Prop where
  text_ne_empty : ∀ x, Segment.text x ∈ f.segments → x ≠ ""
  apart : f.segments.IsChain Segment.Apart

/-- Parts are normal together if they are normal and stand apart where they meet. -/
theorem isNormal_append_iff {segments rest : List Segment} :
    IsNormal ⟨segments ++ rest⟩ ↔ IsNormal ⟨segments⟩ ∧ IsNormal ⟨rest⟩
      ∧ ∀ a ∈ segments.getLast?, ∀ b ∈ rest.head?, a.Apart b := by
  constructor
  · rintro ⟨hne, hapart⟩
    obtain ⟨hsegments, hrest, hmeet⟩ := List.isChain_append.1 hapart
    exact ⟨⟨fun x hx => hne x (List.mem_append_left _ hx), hsegments⟩,
      ⟨fun x hx => hne x (List.mem_append_right _ hx), hrest⟩, hmeet⟩
  · rintro ⟨hsegments, hrest, hmeet⟩
    refine ⟨fun x hx => ?_, List.isChain_append.2 ⟨hsegments.apart, hrest.apart, hmeet⟩⟩
    exact (List.mem_append.1 hx).elim (hsegments.text_ne_empty x) (hrest.text_ne_empty x)

theorem isNormal_text (h : x ≠ "") : IsNormal ⟨[.text x]⟩ :=
  ⟨by simp [h], .singleton _⟩

theorem isNormal_empty : IsNormal .empty :=
  ⟨fun _ h => absurd h List.not_mem_nil, .nil⟩

theorem isNormal_ofText (x : String) : IsNormal (.ofText x) := by
  rw [ofText]
  split
  next => exact isNormal_empty
  next h => exact isNormal_text h

theorem isNormal_ofAnchor (id : AnchorId) : IsNormal (.ofAnchor id) :=
  ⟨by simp [ofAnchor], .singleton _⟩

namespace IsNormal

/-- Appending text keeps normal forms. -/
theorem appendText {segments : List Segment} (hf : IsNormal ⟨segments⟩) (hx : x ≠ "") :
    IsNormal ⟨appendText x segments⟩ := by
  rcases List.eq_nil_or_concat' segments with rfl | ⟨segments, last, rfl⟩
  · exact isNormal_text hx
  obtain ⟨hsegments, hlast, hmeet⟩ := isNormal_append_iff.1 hf
  cases last with
  | text y =>
    -- the text stands where the last one was
    have hyx : y ++ x ≠ "" := by simp [hx]
    rw [appendText_concat_text, isNormal_append_iff]
    refine ⟨hsegments, isNormal_text hyx, fun a ha b hb => ?_⟩
    obtain rfl := Option.some.inj hb
    exact (hmeet a ha (.text y) rfl).text _
  | anchor id =>
    rw [appendText_concat_anchor, isNormal_append_iff]
    refine ⟨hf, isNormal_text hx, fun a ha b hb => ?_⟩
    rw [List.getLast?_concat] at ha
    obtain rfl := Option.some.inj ha
    trivial

/-- One more segment leaves a fragment in normal form, whether it is dropped, merged or added. -/
theorem push (hf : f.IsNormal) (segment : Segment) : (f.push segment).IsNormal := by
  cases segment with
  | text x =>
    rw [Fragment.push]
    split
    next => exact hf
    next hx => exact hf.appendText hx
  | anchor id =>
    refine isNormal_append_iff.2 ⟨hf, isNormal_ofAnchor id, fun a _ b hb => ?_⟩
    obtain rfl := Option.some.inj hb
    exact a.apart_anchor id

/-- The second fragment is pushed segment by segment, so that nothing depends on its form. -/
theorem append (hf : f.IsNormal) (g : Fragment) : (f ++ g).IsNormal := by
  show (g.segments.foldl Fragment.push f).IsNormal
  induction g.segments generalizing f with
  | nil => exact hf
  | cons segment segments ih => exact ih (hf.push segment)

/-- The rest of a normal form is one. -/
theorem tail {segment : Segment} {segments : List Segment} (hf : IsNormal ⟨segment :: segments⟩) :
    IsNormal ⟨segments⟩ :=
  ⟨fun x hx => hf.text_ne_empty x (List.mem_cons_of_mem _ hx), hf.apart.tail⟩

end IsNormal

/-- What is built with the operations on fragments is in normal form. -/
theorem Built.isNormal (hf : f.Built) : f.IsNormal := by
  induction hf with
  | empty => exact isNormal_empty
  | ofText x => exact isNormal_ofText x
  | ofAnchor id => exact isNormal_ofAnchor id
  | push _ segment ih => exact ih.push segment
  | append _ _ ih _ => exact ih.append _
  | parenthesized _ _ => exact ((isNormal_ofText "(").append _).append _
  | join separator _ ih =>
    exact join_induction isNormal_empty (fun f g hf _ => (hf.append _).append g) ih

end Fragment

/-! ## Fragments with the same symbols -/

section Symbols

variable {x y : String} {l r : List Symbol} {id : AnchorId}

/-- Text does not begin with an anchor. -/
theorem textSymbols_append_ne_anchor (hx : x ≠ "") : textSymbols x ++ l ≠ .anchor id :: r := by
  intro h
  rcases List.append_eq_cons_iff.1 h with ⟨hnil, -⟩ | ⟨rest, hx', -⟩
  · exact hx (by simpa [textSymbols] using hnil)
  · exact anchor_notMem_textSymbols (hx' ▸ List.mem_cons_self : Symbol.anchor id ∈ textSymbols x)

/-- Texts end where no more characters follow. -/
theorem textSymbols_append_inj (hl : ∀ c, l.head? ≠ some (.char c))
    (hr : ∀ c, r.head? ≠ some (.char c)) (h : textSymbols x ++ l = textSymbols y ++ r) :
    x = y ∧ l = r := by
  suffices hchars : ∀ {cs ds : List Char}, cs.map .char ++ l = ds.map .char ++ r →
      cs = ds ∧ l = r from
    (hchars h).imp_left String.toList_inj.1
  -- if one text ended first, a character of the other would follow behind it
  intro cs
  induction cs with
  | nil =>
    intro ds h
    cases ds with
    | nil => exact ⟨rfl, h⟩
    | cons d ds => exact absurd (congrArg List.head? h) (hl d)
  | cons c cs ih =>
    intro ds h
    cases ds with
    | nil => exact absurd (congrArg List.head? h.symm) (hr c)
    | cons d ds =>
      obtain ⟨hcd, h⟩ := List.cons.inj h
      obtain ⟨rfl, rfl⟩ := ih h
      exact ⟨by rw [Symbol.char.inj hcd], rfl⟩

end Symbols

namespace Fragment

variable {f g : Fragment} {x : String}

namespace IsNormal

/-- Behind a text there is nothing, or an anchor. -/
theorem head?_ne_char {segments : List Segment} (hf : IsNormal ⟨.text x :: segments⟩) (c : Char) :
    (segments.flatMap Segment.symbols).head? ≠ some (.char c) := by
  cases segments with
  | nil => simp
  | cons segment segments =>
    have hapart : (Segment.text x).Apart segment := (List.isChain_cons_cons.1 hf.apart).1
    cases segment with
    | text y => exact hapart.elim
    | anchor id => simp [Segment.symbols]

/-- Only the empty normal form has no symbols. -/
theorem eq_empty (hf : f.IsNormal) (h : f.symbols = []) : f = .empty := by
  obtain ⟨segments⟩ := f
  cases segments with
  | nil => rfl
  | cons segment segments =>
    have hsegment : segment.symbols = [] := (List.append_eq_nil_iff.1 h).1
    cases segment with
    | text x =>
      have hx : x = "" := by simpa [Segment.symbols, textSymbols] using hsegment
      exact absurd hx (hf.text_ne_empty x List.mem_cons_self)
    | anchor id => cases hsegment

/-- The symbols tell the first segment from those behind it. -/
theorem symbols_cons_inj {a b : Segment} {segments segments' : List Segment}
    (hf : IsNormal ⟨a :: segments⟩) (hg : IsNormal ⟨b :: segments'⟩)
    (h : symbols ⟨a :: segments⟩ = symbols ⟨b :: segments'⟩) :
    a = b ∧ symbols ⟨segments⟩ = symbols ⟨segments'⟩ := by
  -- a text that is not empty begins with a character, so it cannot be taken for an anchor
  cases a with
  | text x =>
    cases b with
    | text y =>
      exact (textSymbols_append_inj hf.head?_ne_char hg.head?_ne_char h).imp_left
        (congrArg Segment.text)
    | anchor id =>
      exact absurd h (textSymbols_append_ne_anchor (hf.text_ne_empty x List.mem_cons_self))
  | anchor id =>
    cases b with
    | text y =>
      exact absurd h.symm (textSymbols_append_ne_anchor (hg.text_ne_empty y List.mem_cons_self))
    | anchor other =>
      obtain ⟨hid, hrest⟩ := List.cons.inj h
      exact ⟨congrArg Segment.anchor (Symbol.anchor.inj hid), hrest⟩

/-- A fragment in normal form is the only one with its symbols. -/
theorem eq_of_symbols (hf : f.IsNormal) (hg : g.IsNormal) (h : f.symbols = g.symbols) : f = g := by
  obtain ⟨segments⟩ := f
  induction segments generalizing g with
  | nil => exact (hg.eq_empty h.symm).symm
  | cons a segments ih =>
    obtain ⟨segments'⟩ := g
    cases segments' with
    | nil => exact hf.eq_empty h
    | cons b segments' =>
      obtain ⟨rfl, hrest⟩ := hf.symbols_cons_inj hg h
      obtain ⟨rfl⟩ := Fragment.mk.inj (ih hg.tail hf.tail hrest)
      rfl

end IsNormal

/-! ## Texts without anchors -/

/-- Without anchors, the symbols are those of a text. -/
theorem symbols_eq_textSymbols (h : f.hasAnchors = false) : f.symbols = textSymbols f.shown := by
  obtain ⟨segments⟩ := f
  induction segments with
  | nil => rfl
  | cons segment segments ih =>
    obtain ⟨hsegment, hrest⟩ := Bool.or_eq_false_iff.1 h
    cases segment with
    | text x =>
      have hshown : shown ⟨.text x :: segments⟩ = x ++ shown ⟨segments⟩ := String.join_cons
      rw [hshown, textSymbols_append, ← ih hrest]
      rfl
    | anchor id => cases hsegment

theorem text?_eq_none (h : f.hasAnchors = true) : f.text? = none := by
  rw [text?]
  split
  next hnil => simp [hasAnchors, hnil] at h
  next x hx => simp [hasAnchors, hx] at h
  next => rfl

theorem text?_ofText (x : String) : (ofText x).text? = some x := by
  rw [ofText]
  split
  next h => exact h ▸ rfl
  next => rfl

/-- A fragment without anchors is the text that it shows. -/
theorem IsNormal.text?_eq (hf : f.IsNormal) :
    f.text? = if f.hasAnchors then none else some f.shown := by
  split
  next h => exact text?_eq_none h
  next h =>
    have hsymbols : f.symbols = (ofText f.shown).symbols := by
      rw [symbols_ofText, symbols_eq_textSymbols (Bool.eq_false_of_not_eq_true h)]
    calc f.text? = (ofText f.shown).text? :=
          congrArg text? (hf.eq_of_symbols (isNormal_ofText _) hsymbols)
      _ = some f.shown := text?_ofText _

/-! ## Laws -/

/-- Appending to a normal form is associative. -/
theorem IsNormal.append_assoc (hf : f.IsNormal) (g h : Fragment) : f ++ g ++ h = f ++ (g ++ h) :=
  ((hf.append g).append h).eq_of_symbols (hf.append (g ++ h)) (by simp)

/-- Appending to nothing leaves a normal form as it is. -/
theorem IsNormal.empty_append (hf : f.IsNormal) : empty ++ f = f :=
  (isNormal_empty.append f).eq_of_symbols hf (by simp)

/-- What is put together from texts and anchors is in normal form. So it is a text exactly if it has
no anchors, appending to it is associative, the empty fragment changes nothing on either side, and
two fragments render behind each other exactly if both of them do, to their texts behind each
other. -/
theorem normalForm_of_built (hf : f.Built) (g h : Fragment) :
    f.IsNormal
      ∧ f.text? = (if f.hasAnchors then none else some f.shown)
      ∧ f ++ g ++ h = f ++ (g ++ h) ∧ f ++ empty = f ∧ empty ++ f = f
      ∧ ∀ (t : AnchorTable) (text : String), t.render (f ++ g) = .ok text ↔
        ∃ x y, t.render f = .ok x ∧ t.render g = .ok y ∧ text = x ++ y :=
  ⟨hf.isNormal, hf.isNormal.text?_eq, hf.isNormal.append_assoc g h, rfl, hf.isNormal.empty_append,
    fun _ _ => AnchorTable.render_append_eq_ok⟩

end Fragment

end EntitySql.Sql

namespace EntitySql.Sample

open Sql

/-- Empty texts at the ends of the parts leave nothing behind, and the text behind the anchor is
merged with what follows it. -/
theorem normalForm_emptyParts :
    let list := Fragment.join ", " ["", .ofAnchor ⟨0⟩ ++ ""]
    let f := list.parenthesized.push (.text "x")
    let g := Fragment.ofAnchor ⟨0⟩
    f.Built ∧ f.IsNormal ∧ f.segments = [.text "(, ", .anchor ⟨0⟩, .text ")x"] ∧ f.text? = none
      ∧ f ++ g ++ "y" = f ++ (g ++ "y") ∧ Fragment.empty ++ f = f
      ∧ AnchorTable.render ⟨[.resolved "z"]⟩ (f ++ g) = .ok "(, z)xz" := by
  intro list f g
  have hlist : list.Built := by
    refine .join ", " (List.forall_mem_cons.2 ⟨.ofText "", List.forall_mem_singleton.2 ?_⟩)
    exact .append (.ofAnchor ⟨0⟩) (.ofText "")
  have hf : f.Built := hlist.parenthesized.push (.text "x")
  obtain ⟨hnormal, htext, hassoc, -, hempty, hrender⟩ := Fragment.normalForm_of_built hf g "y"
  exact ⟨hf, hnormal, by decide, htext, hassoc, hempty,
    (hrender _ _).2 ⟨"(, z)x", "z", rfl, rfl, rfl⟩⟩

end EntitySql.Sample
