/-!
# Fragments of SQL

A fragment is SQL text with places in it that are filled in later. Such a place is an anchor: the
number of an entry in a table that will hold the text. Texts that meet are merged and empty texts
are dropped, so that a fragment without anchors is a single text.
-/

namespace EntitySql.Sql

/-- A place that is filled in later. -/
structure AnchorId where
  index : Nat
deriving DecidableEq

/-- A piece of a fragment. -/
inductive Segment where
  | text (text : String)
  | anchor (id : AnchorId)
deriving DecidableEq

/-- SQL text with anchors in it. -/
@[ext]
structure Fragment where
  segments : List Segment
deriving DecidableEq

/-- A text behind some segments. -/
def appendText (text : String) : List Segment → List Segment
  | [] => [.text text]
  | [.text last] => [.text (last ++ text)]
  | segment :: segments => segment :: appendText text segments

namespace Fragment

/-- No text at all. -/
def empty : Fragment :=
  ⟨[]⟩

/-- A text by itself. -/
def ofText (text : String) : Fragment :=
  if text = "" then empty else ⟨[.text text]⟩

/-- An anchor by itself. -/
def ofAnchor (id : AnchorId) : Fragment :=
  ⟨[.anchor id]⟩

/-- The fragment with one more segment at its end. -/
def push (fragment : Fragment) : Segment → Fragment
  | .text text => if text = "" then fragment else ⟨appendText text fragment.segments⟩
  | .anchor id => ⟨fragment.segments ++ [.anchor id]⟩

/-- One fragment behind the other. -/
def append (a b : Fragment) : Fragment :=
  b.segments.foldl push a

instance : Append Fragment := ⟨append⟩

instance : Coe String Fragment := ⟨ofText⟩

instance : Inhabited Fragment := ⟨empty⟩

/-- The fragment in parentheses. -/
def parenthesized (fragment : Fragment) : Fragment :=
  "(" ++ fragment ++ ")"

/-- The fragment in parentheses if they are asked for. -/
def parenthesizedIf (condition : Bool) (fragment : Fragment) : Fragment :=
  if condition then fragment.parenthesized else fragment

/-- The fragments one behind the other, with a separator between them. -/
def join (separator : String) : List Fragment → Fragment
  | [] => empty
  | first :: rest => rest.foldl (fun joined next => joined ++ separator ++ next) first

/-- Whether there is no segment. -/
def isEmpty (fragment : Fragment) : Bool :=
  fragment.segments.isEmpty

/-- Whether there is an anchor. -/
def hasAnchors (fragment : Fragment) : Bool :=
  fragment.segments.any fun
    | .text _ => false
    | .anchor _ => true

/-- The text of a fragment without anchors. -/
def text? (fragment : Fragment) : Option String :=
  match fragment.segments with
  | [] => some ""
  | [.text text] => some text
  | _ => none

/-- The text with a mark in the place of each anchor. -/
def shown (fragment : Fragment) : String :=
  String.join (fragment.segments.map fun
    | .text text => text
    | .anchor id => "<anchor " ++ toString id.index ++ ">")

end Fragment

/-- The columns of one value. -/
abbrev Columns := List Fragment

end EntitySql.Sql
