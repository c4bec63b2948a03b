import EntitySql.Sql.Fragment

/-!
# The symbols of a fragment

A fragment keeps its text in segments, and appending to it merges texts that meet. None of this
matters for what the fragment says: `Fragment.symbols` is the plain sequence of its characters and
anchors, and appending fragments appends their symbols (`Fragment.symbols_append`). Everything that
is proved about fragments is stated through their symbols.
-/

namespace EntitySql.Sql

/-- A character of a fragment, or an anchor. -/
inductive Symbol where
  | char (c : Char)
  | anchor (id : AnchorId)
deriving DecidableEq

/-- The symbols of a text. -/
def textSymbols (text : String) : List Symbol :=
  text.toList.map .char

@[simp]
theorem textSymbols_empty : textSymbols "" = [] := rfl

/-- The symbols of texts in a row are those of the texts. -/
@[simp]
theorem textSymbols_append (a b : String) :
    textSymbols (a ++ b) = textSymbols a ++ textSymbols b := by
  rw [textSymbols, String.toList_append, List.map_append]
  rfl

theorem char_mem_textSymbols {c : Char} {text : String} :
    Symbol.char c ∈ textSymbols text ↔ c ∈ text.toList := by
  simp [textSymbols]

/-- Texts have no anchors among their symbols. -/
theorem anchor_notMem_textSymbols {id : AnchorId} {text : String} :
    Symbol.anchor id ∉ textSymbols text := by
  simp [textSymbols]

/-- The symbols of a segment. -/
def Segment.symbols : Segment → List Symbol
  | .text x => textSymbols x
  | .anchor id => [.anchor id]

/-- Appending a text to segments appends its symbols, whether or not it is merged. -/
theorem flatMap_symbols_appendText (text : String) (segments : List Segment) :
    (appendText text segments).flatMap Segment.symbols
      = segments.flatMap Segment.symbols ++ textSymbols text := by
  fun_induction appendText text segments with
  | case1 => simp [Segment.symbols]
  | case2 last => simp [Segment.symbols]
  | case3 segment segments _ ih => rw [List.flatMap_cons, ih, List.flatMap_cons, List.append_assoc]

namespace Fragment

/-- The characters and anchors of a fragment, in order. -/
def symbols (fragment : Fragment) : List Symbol :=
  fragment.segments.flatMap Segment.symbols

@[simp]
theorem symbols_empty : symbols empty = [] := rfl

@[simp]
theorem symbols_ofText (text : String) : (ofText text).symbols = textSymbols text := by
  rw [ofText]
  split
  next h => rw [h]; rfl
  next => simp [symbols, Segment.symbols]

@[simp]
theorem symbols_ofAnchor (id : AnchorId) : (ofAnchor id).symbols = [.anchor id] := by
  simp [symbols, ofAnchor, Segment.symbols]

/-- A segment adds its symbols at the end. -/
theorem symbols_push (fragment : Fragment) (segment : Segment) :
    (fragment.push segment).symbols = fragment.symbols ++ segment.symbols := by
  cases segment with
  | text text =>
    rw [push]
    split
    next h => rw [h, Segment.symbols, textSymbols_empty, List.append_nil]
    next => exact flatMap_symbols_appendText text fragment.segments
  | anchor id => simp [push, symbols, Segment.symbols]

/-- The symbols of fragments in a row are those of the fragments. -/
@[simp]
theorem symbols_append (a b : Fragment) : (a ++ b).symbols = a.symbols ++ b.symbols := by
  show (b.segments.foldl push a).symbols = a.symbols ++ b.segments.flatMap Segment.symbols
  induction b.segments generalizing a with
  | nil => simp
  | cons segment segments ih =>
    rw [List.foldl_cons, ih, symbols_push, List.flatMap_cons, List.append_assoc]

/-- What holds of fragments holds of them one behind the other, if it passes over the separator. -/
theorem join_induction {P : Fragment → Prop} {separator : String} {fragments : List Fragment}
    (hempty : P empty) (hstep : ∀ f g, P f → P g → P (f ++ separator ++ g))
    (h : ∀ f ∈ fragments, P f) : P (join separator fragments) := by
  cases fragments with
  | nil => exact hempty
  | cons first rest =>
    rw [join]
    obtain ⟨hfirst, hrest⟩ := List.forall_mem_cons.1 h
    clear h
    induction rest generalizing first with
    | nil => exact hfirst
    | cons next rest ih =>
      obtain ⟨hnext, hrest⟩ := List.forall_mem_cons.1 hrest
      exact ih _ (hstep first next hfirst hnext) hrest

/-- An anchor occurs in a fragment. -/
def Mentions (fragment : Fragment) (id : AnchorId) : Prop :=
  Symbol.anchor id ∈ fragment.symbols

end Fragment

end EntitySql.Sql
