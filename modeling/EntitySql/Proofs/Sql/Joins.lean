import EntitySql.Proofs.Sql.Items
import EntitySql.Syntax.Operator

/-!
# Reading joins

How a database reads joined operands: joins outside of parentheses are put together from the left,
and an `ON` belongs to the join before it. Operands and conditions are left alone, with their texts,
but an operand that is nothing but parentheses is read as what stands in them.

A tree that is written without parentheses is read as `JoinTree.regrouped`
(`JoinTree.Proper.readJoins_text`), which is the tree itself only if no join has another one on its
right (`JoinTree.regrouped_eq_some_iff`). For this, operands and conditions may not have keywords of
joins outside of parentheses, and an operand may not be in parentheses as a whole. It is not if it
ends in a bracket (`JoinTree.Bracketed.proper`).
-/

namespace EntitySql.Sql

/-! ## Trees -/

/-- Operands, connected by joins. -/
inductive JoinTree where
  | operand (text : String)
  /-- A join of some type, or a cross join, which has none. -/
  | join (lhs : JoinTree) (type : Option JoinType) (rhs : JoinTree) (condition : Option String)
deriving DecidableEq

/-- What has been joined from the left. -/
structure Joined where
  tree : JoinTree
  /-- Whether the last join is waiting for a condition. -/
  isOpen : Bool
deriving DecidableEq

namespace Joined

/-- Another operand, on the right of what there is before it. -/
def add (rhs : JoinTree) : Option (Joined × Option JoinType) → Joined
  | none => ⟨rhs, false⟩
  | some (joined, type) => ⟨.join joined.tree type rhs none, true⟩

/-- A condition for the last join, if that is waiting for one. -/
def on? (condition : String) : Joined → Option Joined
  | ⟨.join lhs type rhs none, true⟩ => some ⟨.join lhs type rhs (some condition), false⟩
  | _ => none

end Joined

namespace JoinTree

/-- The keywords of a join. -/
def operator (type : Option JoinType) : String :=
  type.elim "CROSS JOIN" JoinType.sql

/-- The text of the tree, without parentheses. -/
def text : JoinTree → String
  | .operand text => text
  | .join lhs type rhs none => lhs.text ++ (" " ++ operator type ++ " ") ++ rhs.text
  | .join lhs type rhs (some condition) =>
    lhs.text ++ (" " ++ operator type ++ " ") ++ rhs.text ++ " ON " ++ condition

/-- The text of a join, from its operands. -/
theorem text_join (lhs rhs : JoinTree) (type : Option JoinType) :
    (join lhs type rhs none).text = lhs.text ++ " " ++ (operator type ++ " " ++ rhs.text) := by
  simp only [text, String.append_assoc]

/-- A condition stands behind the join. -/
theorem text_join_on (lhs rhs : JoinTree) (type : Option JoinType) (condition : String) :
    (join lhs type rhs (some condition)).text
      = (join lhs type rhs none).text ++ " " ++ ("ON" ++ " " ++ condition) := by
  simp only [text, String.append_assoc]
  rfl

/-- Whether the tree is more than an operand. -/
def isJoin : JoinTree → Bool
  | .operand _ => false
  | .join .. => true

/-- Whether no join has another one on its right. -/
def isLeftNested : JoinTree → Bool
  | .operand _ => true
  | .join lhs _ rhs _ => !rhs.isJoin && lhs.isLeftNested

/-- The operands, joins and conditions of the tree in their order, joined from the left onto what
there is before them. A second condition for the same join does not fit. -/
def onto : JoinTree → Option (Joined × Option JoinType) → Option Joined
  | .operand text, before => some (.add (.operand text) before)
  | .join lhs type rhs condition, before => do
    let left ← lhs.onto before
    let joined ← rhs.onto (some (left, type))
    condition.elim (some joined) joined.on?

/-- The tree that is left of this one without parentheses, if there is one. -/
def regrouped (tree : JoinTree) : Option JoinTree :=
  (tree.onto none).map (·.tree)

/-! ## Which trees stay -/

/-- Joins that are put together from the left have none on the right. -/
theorem isLeftNested_onto {tree : JoinTree} {before : Option (Joined × Option JoinType)}
    {joined : Joined} (hbefore : ∀ b ∈ before, b.1.tree.isLeftNested = true)
    (h : tree.onto before = some joined) : joined.tree.isLeftNested = true := by
  induction tree generalizing before joined with
  | operand text =>
    obtain rfl := Option.some.inj h
    cases before with
    | none => rfl
    | some b => exact hbefore b rfl
  | join lhs type rhs condition ihl ihr =>
    obtain ⟨left, hleft, h⟩ := Option.bind_eq_some_iff.1 h
    obtain ⟨right, hright, h⟩ := Option.bind_eq_some_iff.1 h
    have hnested : right.tree.isLeftNested = true := by
      refine ihr (fun b hb => ?_) hright
      obtain rfl := Option.some.inj hb
      exact ihl hbefore hleft
    cases condition with
    | none =>
      obtain rfl := Option.some.inj h
      exact hnested
    | some condition =>
      change right.on? condition = some joined at h
      unfold Joined.on? at h
      split at h
      next lhs' type' rhs' =>
        obtain rfl := Option.some.inj h
        cases rhs' with
        | operand => exact hnested
        | join => cases hnested
      next => cases h

/-- A tree without joins on the right is put together to itself. -/
theorem onto_none_of_isLeftNested {tree : JoinTree} (h : tree.isLeftNested = true) :
    ∃ isOpen, tree.onto none = some ⟨tree, isOpen⟩ := by
  induction tree with
  | operand text => exact ⟨false, rfl⟩
  | join lhs type rhs condition ih =>
    cases rhs with
    | join => cases h
    | operand text =>
      obtain ⟨isOpen, hlhs⟩ := ih h
      rw [onto, hlhs]
      cases condition with
      | none => exact ⟨true, rfl⟩
      | some condition => exact ⟨false, rfl⟩

/-- A tree survives the loss of its parentheses only if it needs none. -/
theorem regrouped_eq_some_iff {tree : JoinTree} :
    tree.regrouped = some tree ↔ tree.isLeftNested = true := by
  constructor
  · intro h
    obtain ⟨joined, hjoined, rfl⟩ := Option.map_eq_some_iff.1 h
    exact isLeftNested_onto (by simp) hjoined
  · intro h
    obtain ⟨isOpen, honto⟩ := onto_none_of_isLeftNested h
    rw [regrouped, honto]
    rfl

end JoinTree

/-! ## The reader -/

/-- What is being read. -/
inductive JoinSpot where
  /-- An operand, with the joins and the keywords before it, if it is not the first one. -/
  | operand (before : Option (Joined × Option JoinType))
  /-- A condition for the last join. -/
  | condition (joined : Joined)
deriving DecidableEq

/-- What has been read of joined operands. -/
structure JoinReader where
  spot : JoinSpot
  /-- The items of the operand or the condition, last one first. -/
  items : List Item
deriving DecidableEq

/-- The type of a join whose keywords but the last one are at the end, and the items before them.
The items are given last one first. -/
def joinType? : List Item → Option (Option JoinType × List Item)
  | .mark ' ' :: last :: .mark ' ' :: items =>
    if last.isWord "CROSS" then some (none, items)
    else if last.isWord "INNER" then some (some .inner, items)
    else if last.isWord "OUTER" then
      match items with
      | first :: .mark ' ' :: items =>
        if first.isWord "LEFT" then some (some .leftOuter, items)
        else if first.isWord "RIGHT" then some (some .rightOuter, items)
        else if first.isWord "FULL" then some (some .fullOuter, items)
        else none
      | _ => none
    else none
  | _ => none

/-- The text of items. -/
def itemsText (items : List Item) : String :=
  String.ofList (items.flatMap (·.text))

/-- The tree for the items of an operand. What stands in parentheses is read with `read`. -/
def operand? (read : String → Option JoinTree) : List Item → Option JoinTree
  | [] => none
  | [.group text _] => read (String.ofList text)
  | item :: items => some (.operand (itemsText (item :: items)))

namespace JoinReader

/-- Before a text. -/
def start : JoinReader :=
  ⟨.operand none, []⟩

variable (read : String → Option JoinTree)

/-- What is joined by the text that has been read. A blank stands behind the keywords. -/
def joined? (r : JoinReader) : Option Joined :=
  match r.spot, r.items.reverse with
  | .operand none, items => (operand? read items).map (.add · none)
  | .operand (some before), .mark ' ' :: items => (operand? read items).map (.add · (some before))
  | .condition joined, .mark ' ' :: items => joined.on? (itemsText items)
  | _, _ => none

/-- Reads an item. `JOIN` and `ON` end the operand or the condition before them. -/
def step (r : JoinReader) (item : Item) : Option JoinReader :=
  if item.isWord "JOIN" then
    (joinType? r.items).bind fun found =>
      (joined? read ⟨r.spot, found.2⟩).map fun joined => ⟨.operand (some (joined, found.1)), []⟩
  else if item.isWord "ON" then
    match r.items with
    | .mark ' ' :: items => (joined? read ⟨r.spot, items⟩).map fun joined => ⟨.condition joined, []⟩
    | _ => none
  else some { r with items := item :: r.items }

/-- Reads items, one after the other. -/
def run (r : JoinReader) (items : List Item) : Option JoinReader :=
  items.foldlM (step read) r

end JoinReader

/-- The items of a text that is closed. -/
def items? (text : String) : Option (List Item) := do
  let r ← Reader.start.run text.toList
  if r.spot = .text .plain ∧ r.outer = [] then return r.level.reverse else none

/-- The joins of a text with parentheses that are at most so deep. -/
def readJoinsWithin : Nat → String → Option JoinTree
  | 0, _ => none
  | depth + 1, text =>
    (items? text).bind fun items =>
      (JoinReader.start.run (readJoinsWithin depth) items).bind fun r =>
        (r.joined? (readJoinsWithin depth)).map (·.tree)

/-- The joins of a text. Its parentheses are not deeper than it is long. -/
def readJoins (text : String) : Option JoinTree :=
  readJoinsWithin (text.length + 1) text

/-! ## Trees that are written without parentheses -/

theorem items?_eq_some_iff {text : String} {items : List Item} :
    items? text = some items ↔ Reads text items := by
  rw [items?, Option.bind_eq_bind, Option.bind_eq_some_iff]
  refine exists_congr fun r => and_congr_right fun _ => ?_
  rw [Option.ite_none_right_eq_some]
  exact and_congr_right fun _ => Option.some_inj

/-- Whether the word is neither `JOIN` nor `ON`. -/
def isNotJoining (word : List Char) : Bool :=
  !(Item.word word).isWord "JOIN" && !(Item.word word).isWord "ON"

/-- The text has these items, and no keyword of a join is among them. -/
structure Unjoined (text : String) (items : List Item) : Prop where
  reads : Reads text items
  text : itemsText items = text
  admitted : ∀ item ∈ items, item.isAdmitted isNotJoining = true

/-- The text of an operand is no text in parentheses, and has no joins outside of them. -/
def IsJoinOperand (text : String) : Prop :=
  ∃ items, Unjoined text items ∧ items ≠ [] ∧ ∀ inner condition, items ≠ [.group inner condition]

/-- Operands are operands, and conditions have no joins outside of parentheses. -/
def JoinTree.Proper : JoinTree → Prop
  | .operand text => IsJoinOperand text
  | .join lhs _ rhs condition =>
    lhs.Proper ∧ rhs.Proper ∧ ∀ text ∈ condition, ∃ items, Unjoined text items

namespace JoinReader

variable {read : String → Option JoinTree} {items : List Item}

/-- Items are read in their order. -/
theorem run_append (r : JoinReader) (a b : List Item) :
    r.run read (a ++ b) = (r.run read a).bind (·.run read b) := by
  rw [run, List.foldlM_append]
  rfl

theorem run_singleton (r : JoinReader) (item : Item) : r.run read [item] = r.step read item :=
  Option.bind_fun_some _

/-- Items that do not belong to joins are collected. -/
theorem step_of_isAdmitted {item : Item} (h : item.isAdmitted isNotJoining = true)
    (r : JoinReader) : r.step read item = some ⟨r.spot, item :: r.items⟩ := by
  have hword : item.isWord "JOIN" = false ∧ item.isWord "ON" = false := by
    cases item with
    | word chars => simpa [Item.isAdmitted, isNotJoining] using h
    | mark | group => exact ⟨rfl, rfl⟩
  rw [step, hword.1, hword.2]
  rfl

/-- Items that do not belong to joins are collected, one after the other. -/
theorem run_of_isAdmitted (h : ∀ item ∈ items, item.isAdmitted isNotJoining = true)
    (r : JoinReader) : r.run read items = some ⟨r.spot, items.reverse ++ r.items⟩ := by
  induction items generalizing r with
  | nil => rfl
  | cons item items ih =>
    obtain ⟨hitem, hitems⟩ := List.forall_mem_cons.1 h
    have hrun : r.run read (item :: items) = (r.step read item).bind (·.run read items) := rfl
    rw [hrun, step_of_isAdmitted hitem, Option.bind_some, ih hitems, List.reverse_cons,
      List.append_assoc]
    rfl

/-- Keywords end what stands before them. Then something begins with a blank. -/
theorem run_keywords {keywords : List Item} {next : Joined → JoinSpot}
    (h : ∀ r : JoinReader,
      r.run read (.mark ' ' :: keywords) = (r.joined? read).map fun j => ⟨next j, []⟩)
    (r : JoinReader) (a b : List Item) :
    r.run read (a ++ .mark ' ' :: (keywords ++ .mark ' ' :: b))
      = ((r.run read a).bind (·.joined? read)).bind fun j =>
        JoinReader.run read ⟨next j, [.mark ' ']⟩ b := by
  rw [← List.cons_append, run_append, Option.bind_assoc]
  refine Option.bind_congr fun s _ => ?_
  rw [run_append, h, Option.bind_map]
  rfl

/-- The keywords of a join before `JOIN`, as items. -/
def typeItems : Option JoinType → List Item
  | none => [.word "CROSS".toList]
  | some .inner => [.word "INNER".toList]
  | some .leftOuter => [.word "LEFT".toList, .mark ' ', .word "OUTER".toList]
  | some .rightOuter => [.word "RIGHT".toList, .mark ' ', .word "OUTER".toList]
  | some .fullOuter => [.word "FULL".toList, .mark ' ', .word "OUTER".toList]

/-- A join ends what was collected before it. -/
theorem run_operator (type : Option JoinType) (r : JoinReader) :
    r.run read (.mark ' ' :: (typeItems type ++ [.mark ' ', .word "JOIN".toList]))
      = (r.joined? read).map fun j => ⟨.operand (some (j, type)), []⟩ := by
  have hadmitted : ∀ item ∈ .mark ' ' :: (typeItems type ++ [.mark ' ']),
      item.isAdmitted isNotJoining = true := by
    rcases type with _ | _ | _ | _ | _ <;> decide
  have htype (items : List Item) :
      joinType? ((.mark ' ' :: (typeItems type ++ [.mark ' '])).reverse ++ items)
        = some (type, items) := by
    rcases type with _ | _ | _ | _ | _ <;> rfl
  have hsplit : Item.mark ' ' :: (typeItems type ++ [.mark ' ', .word "JOIN".toList])
      = (.mark ' ' :: (typeItems type ++ [.mark ' '])) ++ [.word "JOIN".toList] := by
    simp
  have hjoin (s : JoinReader) : s.step read (.word "JOIN".toList)
      = (joinType? s.items).bind fun found => (joined? read ⟨s.spot, found.2⟩).map fun j =>
        ⟨.operand (some (j, found.1)), []⟩ := rfl
  rw [hsplit, run_append, run_of_isAdmitted hadmitted, Option.bind_some, run_singleton, hjoin,
    htype, Option.bind_some]

/-- An `ON` ends the operand before it. -/
theorem run_on (r : JoinReader) :
    r.run read [.mark ' ', .word "ON".toList] = (r.joined? read).map fun j => ⟨.condition j, []⟩ :=
  run_singleton ⟨r.spot, .mark ' ' :: r.items⟩ (.word "ON".toList)

end JoinReader

/-- The words of a join, one by one. -/
theorem reads_operator (type : Option JoinType) :
    Reads (JoinTree.operator type)
      (JoinReader.typeItems type ++ [.mark ' ', .word "JOIN".toList]) :=
  items?_eq_some_iff.1 (by rcases type with _ | _ | _ | _ | _ <;> decide)

theorem reads_on : Reads "ON" [.word "ON".toList] :=
  items?_eq_some_iff.1 (by decide)

/-- A text without words of joins is collected as a whole. -/
theorem Unjoined.run {text : String} {items : List Item} (h : Unjoined text items)
    {read : String → Option JoinTree} (r : JoinReader) :
    r.run read items = some ⟨r.spot, items.reverse ++ r.items⟩ :=
  JoinReader.run_of_isAdmitted h.admitted r

/-- The text of an operand is read as that operand. -/
theorem IsJoinOperand.exists_reads {text : String} (h : IsJoinOperand text) :
    ∃ items, Unjoined text items ∧ ∀ read, operand? read items = some (.operand text) := by
  obtain ⟨items, hitems, hne, hgroup⟩ := h
  refine ⟨items, hitems, fun read => ?_⟩
  have htext : some (JoinTree.operand (itemsText items)) = some (.operand text) := by
    rw [hitems.text]
  unfold operand?
  split
  next => exact absurd rfl hne
  next inner condition => exact absurd rfl (hgroup inner condition)
  next => exact htext

/-- The items behind the keywords of a join begin with a blank. -/
def blankBehind (before : Option (Joined × Option JoinType)) : List Item :=
  before.elim [] fun _ => [.mark ' ']

/-- What was collected behind a join is its operand. -/
theorem JoinReader.joined?_operand (read : String → Option JoinTree) (items : List Item)
    (before : Option (Joined × Option JoinType)) :
    joined? read ⟨.operand before, items.reverse ++ blankBehind before⟩
      = (operand? read items).map (.add · before) := by
  rw [joined?, List.reverse_append, List.reverse_reverse]
  cases before <;> rfl

/-- What was collected behind an `ON` is its condition. -/
theorem JoinReader.joined?_condition (read : String → Option JoinTree) (items : List Item)
    (joined : Joined) :
    joined? read ⟨.condition joined, items.reverse ++ [.mark ' ']⟩
      = joined.on? (itemsText items) := by
  rw [joined?, List.reverse_append, List.reverse_reverse]
  rfl

/-- What the reader joins when it comes to the text is `onto` of what there is before it. -/
def JoinsOnto (text : String) (onto : Option (Joined × Option JoinType) → Option Joined) : Prop :=
  ∃ items, Reads text items ∧ ∀ read before,
    (JoinReader.run read ⟨.operand before, blankBehind before⟩ items).bind (·.joined? read)
      = onto before

namespace JoinsOnto

variable {x y : String} {f g : Option (Joined × Option JoinType) → Option Joined}

/-- A join is read after its first operand, and then its second one. -/
theorem join (hx : JoinsOnto x f) (hy : JoinsOnto y g) (type : Option JoinType) :
    JoinsOnto (x ++ " " ++ (JoinTree.operator type ++ " " ++ y)) fun before =>
      (f before).bind fun left => g (some (left, type)) := by
  obtain ⟨lefts, hlefts, hleft⟩ := hx
  obtain ⟨rights, hrights, hright⟩ := hy
  have hreads := hlefts.append ((reads_operator type).append hrights)
  refine ⟨_, hreads, fun read before => ?_⟩
  rw [JoinReader.run_keywords (JoinReader.run_operator type), hleft, Option.bind_assoc]
  exact Option.bind_congr fun left _ => hright read (some (left, type))

/-- A condition is read after its join. -/
theorem on {items : List Item} (hx : JoinsOnto x f) (hy : Unjoined y items) :
    JoinsOnto (x ++ " " ++ ("ON" ++ " " ++ y)) fun before => (f before).bind (·.on? y) := by
  obtain ⟨lefts, hlefts, hleft⟩ := hx
  have hreads := hlefts.append (reads_on.append hy.reads)
  refine ⟨_, hreads, fun read before => ?_⟩
  rw [JoinReader.run_keywords JoinReader.run_on, hleft, Option.bind_assoc]
  refine Option.bind_congr fun joined _ => ?_
  rw [hy.run, Option.bind_some, JoinReader.joined?_condition, hy.text]

end JoinsOnto

namespace JoinTree

variable {tree : JoinTree}

/-- A proper tree is read by putting it on what is before it, by induction on the tree. -/
theorem Proper.joinsOnto (h : tree.Proper) : JoinsOnto tree.text tree.onto := by
  induction tree with
  | operand text =>
    obtain ⟨items, hitems, hoperand⟩ := IsJoinOperand.exists_reads h
    refine ⟨items, hitems.reads, fun read before => ?_⟩
    rw [hitems.run, Option.bind_some, JoinReader.joined?_operand, hoperand]
    rfl
  | join lhs type rhs condition ihl ihr =>
    obtain ⟨hlhs, hrhs, hcondition⟩ := h
    have hjoin := (ihl hlhs).join (ihr hrhs) type
    rw [← text_join] at hjoin
    cases condition with
    | none =>
      have honto : (JoinTree.join lhs type rhs none).onto
          = fun before => (lhs.onto before).bind fun left => rhs.onto (some (left, type)) := by
        funext before
        exact Option.bind_congr fun left _ => Option.bind_fun_some _
      rw [honto]
      exact hjoin
    | some condition =>
      obtain ⟨items, hitems⟩ := hcondition condition rfl
      have honto : (JoinTree.join lhs type rhs (some condition)).onto = fun before =>
          ((lhs.onto before).bind fun left => rhs.onto (some (left, type))).bind
            (·.on? condition) := by
        funext before
        rw [Option.bind_assoc]
        rfl
      rw [honto, text_join_on]
      exact hjoin.on hitems

/-- A tree without parentheses is read from the left. -/
theorem Proper.readJoins_text (h : tree.Proper) : readJoins tree.text = tree.regrouped := by
  obtain ⟨items, hitems, hrun⟩ := h.joinsOnto
  rw [readJoins, readJoinsWithin, items?_eq_some_iff.2 hitems, Option.bind_some, regrouped,
    ← hrun (readJoinsWithin tree.text.length), Option.map_bind]
  rfl

-- in parentheses a join stays on the right, without them it becomes the last one
example :
    readJoins "[a] LEFT OUTER JOIN ([b] CROSS JOIN [c]) ON x"
      = some (.join (.operand "[a]") (some .leftOuter)
        (.join (.operand "[b]") none (.operand "[c]") none) (some "x"))
    ∧ readJoins "[a] LEFT OUTER JOIN [b] CROSS JOIN [c] ON x"
      = some (.join (.join (.operand "[a]") (some .leftOuter) (.operand "[b]") none)
        none (.operand "[c]") (some "x")) := by
  decide +kernel

/-! ## Trees with texts that end in brackets -/

/-- No keyword of a join stands outside in operands and conditions, and operands end in brackets. -/
def Bracketed : JoinTree → Prop
  | .operand text =>
    OnlyWords isNotJoining (textSymbols text) ∧ text.toList.getLast? = some ']'
  | .join lhs _ rhs condition =>
    lhs.Bracketed ∧ rhs.Bracketed
      ∧ ∀ text ∈ condition, OnlyWords isNotJoining (textSymbols text)

theorem nesting_operator (type : Option JoinType) :
    Nesting.run ⟨.plain, 0⟩ (textSymbols (operator type)) = some ⟨.plain, 0⟩ := by
  rcases type with _ | _ | _ | _ | _ <;> decide

/-- The text of a tree of joins closes what it opens. -/
theorem Bracketed.nesting (h : tree.Bracketed) :
    Nesting.run ⟨.plain, 0⟩ (textSymbols tree.text) = some ⟨.plain, 0⟩ := by
  induction tree with
  | operand text => exact h.1.nesting
  | join lhs type rhs condition ihl ihr =>
    obtain ⟨hlhs, hrhs, hcondition⟩ := h
    have hjoin : Nesting.run ⟨.plain, 0⟩ (textSymbols (join lhs type rhs none).text)
        = some ⟨.plain, 0⟩ := by
      rw [text_join]
      exact nesting_separated (ihl hlhs) (nesting_separated (nesting_operator type) (ihr hrhs))
    cases condition with
    | none => exact hjoin
    | some condition =>
      rw [text_join_on]
      exact nesting_separated hjoin (nesting_separated (by decide) (hcondition _ rfl).nesting)

/-- Text without words of joins and without comments is collected as a whole. -/
theorem exists_unjoined {x : String} (h : OnlyWords isNotJoining (textSymbols x))
    (hfree : isCommentFree x = true) : ∃ items, Unjoined x items := by
  obtain ⟨items, hreads, htext, hitems⟩ := h.exists_reads hfree
  refine ⟨items, hreads, ?_, hitems⟩
  rw [itemsText, htext, String.ofList_toList]

/-- A text that ends in a bracket is not in parentheses. -/
theorem isJoinOperand_of_getLast? {x : String} (h : OnlyWords isNotJoining (textSymbols x))
    (hlast : x.toList.getLast? = some ']') (hfree : isCommentFree x = true) :
    IsJoinOperand x := by
  obtain ⟨items, hitems⟩ := exists_unjoined h hfree
  rw [← hitems.text, itemsText, String.toList_ofList] at hlast
  refine ⟨items, hitems, ?_, fun inner condition => ?_⟩
  · rintro rfl
    cases hlast
  · rintro rfl
    simp [Item.text, List.getLast?_cons] at hlast

/-- If no comment begins in its text, the tree is read from the left. -/
theorem Bracketed.proper (h : tree.Bracketed) (hfree : isCommentFree tree.text = true) :
    tree.Proper := by
  induction tree with
  | operand text => exact isJoinOperand_of_getLast? h.1 h.2 hfree
  | join lhs type rhs condition ihl ihr =>
    obtain ⟨hlhs, hrhs, hcondition⟩ := h
    have hjoin : isCommentFree (join lhs type rhs none).text = true →
        lhs.Proper ∧ rhs.Proper := by
      intro hfree
      rw [text_join] at hfree
      obtain ⟨hleft, hrest⟩ := isCommentFree_of_separated hlhs.nesting hfree
      have hright := (isCommentFree_of_separated (nesting_operator type) hrest).2
      exact ⟨ihl hlhs hleft, ihr hrhs hright⟩
    cases condition with
    | none =>
      obtain ⟨hleft, hright⟩ := hjoin hfree
      exact ⟨hleft, hright, by simp⟩
    | some condition =>
      have hnested : (join lhs type rhs none).Bracketed := ⟨hlhs, hrhs, by simp⟩
      rw [text_join_on] at hfree
      obtain ⟨hbefore, hrest⟩ := isCommentFree_of_separated hnested.nesting hfree
      have htext := (isCommentFree_of_separated (by decide) hrest).2
      obtain ⟨hleft, hright⟩ := hjoin hbefore
      refine ⟨hleft, hright, fun text hmem => ?_⟩
      obtain rfl := Option.some.inj hmem
      exact exists_unjoined (hcondition condition rfl) htext

end JoinTree

end EntitySql.Sql
