import EntitySql.Sql.Fragment

/-!
# Filling in anchors

An anchor is reserved first. It may then receive the parts of a subquery from which its text is
made, give them back, and finally be resolved, once. `AnchorTable.render` replaces all anchors of a
fragment, also those in the replacements. A replacement that leads back to itself is an error, which
shows in replacements nested deeper than there are anchors.
-/

namespace EntitySql.Sql

/-- The parts of a subquery whose condition is made later. -/
structure CapturedSelect where
  /-- The columns that the subquery selects. -/
  columns : Columns
  /-- The condition that the subquery itself states. -/
  condition : Option Fragment

/-- What is known about an anchor. -/
inductive AnchorState where
  | reserved
  | captured (select : CapturedSelect)
  | resolved (replacement : Fragment)

/-- Why an anchor cannot be used in this way. -/
inductive AnchorError where
  | notAwaitingCapture (id : AnchorId)
  | notCaptured (id : AnchorId)
  | notResolvable (id : AnchorId)
  | unresolved (id : AnchorId)
  | cycle
deriving DecidableEq

/-- What the error is about. -/
def AnchorError.message : AnchorError → String
  | .notAwaitingCapture id =>
    "anchor " ++ toString id.index ++ " is not awaiting a subquery capture"
  | .notCaptured id => "anchor " ++ toString id.index ++ " has no captured subquery"
  | .notResolvable id => "anchor " ++ toString id.index ++ " cannot be resolved twice"
  | .unresolved id => "anchor " ++ toString id.index ++ " was never resolved"
  | .cycle => "anchor replacements form a cycle"

/-- The anchors of a statement. -/
structure AnchorTable where
  entries : List AnchorState

namespace AnchorTable

/-- The table without anchors. -/
def empty : AnchorTable :=
  ⟨[]⟩

instance : Inhabited AnchorTable := ⟨empty⟩

/-- The number of anchors. -/
def size (table : AnchorTable) : Nat :=
  table.entries.length

/-- A new anchor. -/
def reserve (table : AnchorTable) : AnchorId × AnchorTable :=
  (⟨table.size⟩, ⟨table.entries ++ [.reserved]⟩)

/-- What is known about an anchor. -/
def get? (table : AnchorTable) (id : AnchorId) : Option AnchorState :=
  table.entries[id.index]?

/-- The table with new knowledge about an anchor. -/
def set (table : AnchorTable) (id : AnchorId) (state : AnchorState) : AnchorTable :=
  ⟨table.entries.set id.index state⟩

/-- Puts the parts of a subquery into a reserved anchor. -/
def capture (table : AnchorTable) (id : AnchorId) (select : CapturedSelect) :
    Except AnchorError AnchorTable :=
  match table.get? id with
  | some .reserved => .ok (table.set id (.captured select))
  | _ => .error (.notAwaitingCapture id)

/-- Takes the parts of the subquery out of an anchor. -/
def takeCapture (table : AnchorTable) (id : AnchorId) :
    Except AnchorError (CapturedSelect × AnchorTable) :=
  match table.get? id with
  | some (.captured select) => .ok (select, table.set id .reserved)
  | _ => .error (.notCaptured id)

/-- Gives an anchor its text. -/
def resolve (table : AnchorTable) (id : AnchorId) (replacement : Fragment) :
    Except AnchorError AnchorTable :=
  match table.get? id with
  | none | some (.resolved _) => .error (.notResolvable id)
  | some _ => .ok (table.set id (.resolved replacement))

/-- The text of an anchor, if it has one. -/
def resolved? (table : AnchorTable) (id : AnchorId) : Option Fragment :=
  match table.get? id with
  | some (.resolved replacement) => some replacement
  | _ => none

/-- The text of a fragment, with replacements nested less than `bound` deep. -/
def renderWithin (table : AnchorTable) : Nat → Fragment → Except AnchorError String
  | 0, _ => .error .cycle
  | bound + 1, fragment => do
    let texts ← fragment.segments.mapM fun
      | .text text => .ok text
      | .anchor id =>
        match table.resolved? id with
        | some replacement => renderWithin table bound replacement
        | none => .error (.unresolved id)
    return String.join texts

/-- The text of a fragment, all anchors replaced. -/
def render (table : AnchorTable) (fragment : Fragment) : Except AnchorError String :=
  table.renderWithin (table.size + 1) fragment

end AnchorTable

end EntitySql.Sql
