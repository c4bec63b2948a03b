import EntitySql.Proofs.Sql.Scan
import EntitySql.Text.Ascii

/-!
# Reading conditions

How a database reads the text of a condition: what `AND` and `OR` connect, `AND` more tightly than
`OR`, and parentheses more tightly than both. Everything else is left alone, as an operand with its
text: comparisons, `NOT`, calls, subqueries. Words in quotes, brackets and comments connect nothing,
nor do those inside of `CASE … END`, and the `AND` of a `BETWEEN` belongs to it.

`Reader` goes over the text once. It keeps the items of the innermost parentheses, and turns them
into one item when they close. So what it makes of a text does not depend on the parentheses around
it (`Reader.run_under`), provided that the text is closed: it ends outside of quotes, brackets and
comments, with no parenthesis open that it has not closed and none closed that it has not opened.
Two closed texts in parentheses are what their readings are (`read?_conjunction`), whatever connects
them at their top level.
-/

namespace EntitySql.Sql

/-! ## Conditions -/

/-- Operands, connected by `AND` and `OR`. -/
inductive Condition where
  | operand (text : String)
  | and (lhs rhs : Condition)
  | or (lhs rhs : Condition)
deriving DecidableEq

namespace Condition

/-- Whether both hold, if that is known. -/
def both : Option Bool → Option Bool → Option Bool
  | some true, some true => some true
  | some false, _ | _, some false => some false
  | _, _ => none

/-- Whether one of them holds, if that is known. -/
def either : Option Bool → Option Bool → Option Bool
  | some false, some false => some false
  | some true, _ | _, some true => some true
  | _, _ => none

/-- Whether a condition holds, if that is known, by what is known of its operands. -/
def value (truth : String → Option Bool) : Condition → Option Bool
  | .operand text => truth text
  | .and lhs rhs => both (lhs.value truth) (rhs.value truth)
  | .or lhs rhs => either (lhs.value truth) (rhs.value truth)

theorem both_eq_true {a b : Option Bool} : both a b = some true ↔ a = some true ∧ b = some true := by
  rcases a with _ | _ | _ <;> rcases b with _ | _ | _ <;> simp [both]

end Condition

/-! ## Items -/

/-- A piece of a condition outside of further parentheses. -/
inductive Item where
  /-- A word outside of quotes and brackets. -/
  | word (chars : List Char)
  /-- A character that is not part of such a word. -/
  | mark (c : Char)
  /-- A text in parentheses, as it stands and as it is read. -/
  | group (text : List Char) (condition : Condition)
deriving DecidableEq

namespace Item

/-- The text of an item. -/
def text : Item → List Char
  | word chars => chars
  | mark c => [c]
  | group text _ => '(' :: (text ++ [')'])

/-- Whether an item is this word. -/
def isWord (item : Item) (name : String) : Bool :=
  match item with
  | word chars => chars.map Char.toLower = Text.folded name
  | _ => false

/-- Whether an item only separates others. -/
def isBlank : Item → Bool
  | mark c => c = ' ' || c = '\n' || c = '\t' || c = '\r'
  | _ => false

end Item

/-- What the words before an item leave open. -/
structure Pending where
  /-- The number of `CASE` without their `END`. -/
  cases : Nat
  /-- The number of `BETWEEN` without their `AND`. -/
  ranges : Nat

/-- What is open behind an item, or nothing if the items are to be cut at it. -/
def Pending.next? (pending : Pending) (connective : String) (item : Item) : Option Pending :=
  if item.isWord "CASE" then some { pending with cases := pending.cases + 1 }
  else if item.isWord "END" then some { pending with cases := pending.cases - 1 }
  else if 0 < pending.cases then some pending
  else if item.isWord "BETWEEN" then some { pending with ranges := pending.ranges + 1 }
  else if item.isWord "AND" && 0 < pending.ranges then
    some { pending with ranges := pending.ranges - 1 }
  else if item.isWord connective then none
  else some pending

/-- The items up to the first connective, and those between connectives behind it. -/
def cutFrom (connective : String) : Pending → List Item → List Item × List (List Item)
  | _, [] => ([], [])
  | pending, item :: items =>
    match pending.next? connective item with
    | some pending =>
      let (first, rest) := cutFrom connective pending items
      (item :: first, rest)
    | none =>
      let (first, rest) := cutFrom connective pending items
      ([], first :: rest)

/-- The items between connectives. -/
def cut (connective : String) (items : List Item) : List Item × List (List Item) :=
  cutFrom connective ⟨0, 0⟩ items

namespace Condition

/-- The reading of items that nothing connects. -/
def ofOperand (items : List Item) : Condition :=
  match ((items.dropWhile (·.isBlank)).reverse.dropWhile (·.isBlank)).reverse with
  | [.group _ condition] => condition
  | items => .operand (String.ofList (items.flatMap (·.text)))

/-- The reading of items that no `OR` connects. -/
def ofConjuncts (items : List Item) : Condition :=
  let (first, rest) := cut "AND" items
  rest.foldl (fun condition items => .and condition (ofOperand items)) (ofOperand first)

/-- The reading of items. -/
def ofItems (items : List Item) : Condition :=
  let (first, rest) := cut "OR" items
  rest.foldl (fun condition items => .or condition (ofConjuncts items)) (ofConjuncts first)

end Condition

/-! ## The reader -/

/-- Where the reader is. -/
inductive Spot where
  | text (region : Region)
  | lineComment
  /-- The last character may be the first one of the end. -/
  | blockComment (star : Bool)
deriving DecidableEq

/-- What has been read of a condition. -/
structure Reader where
  spot : Spot
  /-- The word at the end, last character first. -/
  word : List Char
  /-- The items of the innermost parentheses before the word, last one first. -/
  items : List Item
  /-- The items of the parentheses around, the innermost first. -/
  outer : List (List Item)
deriving DecidableEq

/-- The comment that two characters begin. -/
def commentBegun (a b : Char) : Option Spot :=
  if a = '-' && b = '-' then some .lineComment
  else if a = '/' && b = '*' then some (.blockComment false)
  else none

/-- Whether a character can be part of a word. A parameter is one word with its mark. -/
def isWordChar (c : Char) : Bool :=
  c.isAlphanum || c ∈ ['_', ':', '@', '$', '?'] || 127 < c.toNat

namespace Reader

/-- Before a text. -/
def start : Reader :=
  ⟨.text .plain, [], [], []⟩

/-- All items of the innermost parentheses, last one first. -/
def level (r : Reader) : List Item :=
  if r.word = [] then r.items else .word r.word.reverse :: r.items

/-- Reads a character that is no part of a word. -/
def put (r : Reader) (region : Region) (c : Char) : Reader :=
  { r with spot := .text region, word := [], items := .mark c :: r.level }

/-- The character before, if it is outside of words and parentheses. -/
def lastMark? (r : Reader) : Option Char :=
  match r.word, r.items with
  | [], .mark last :: _ => some last
  | _, _ => none

/-- The comment that a character begins together with the one before it. -/
def comment? (r : Reader) (c : Char) : Option Spot :=
  r.lastMark?.bind (commentBegun · c)

/-- The reading of the innermost parentheses. -/
def condition (r : Reader) : Condition :=
  .ofItems r.level.reverse

/-- The innermost parentheses as an item. -/
def group (r : Reader) : Item :=
  .group (r.level.reverse.flatMap (·.text)) r.condition

/-- Closes the innermost parentheses. -/
def close? (r : Reader) : Option Reader :=
  match r.outer with
  | [] => none
  | items :: outer => some ⟨.text .plain, [], r.group :: items, outer⟩

/-- Reads a character outside of quotes, brackets and comments. -/
def plainChar (r : Reader) (c : Char) : Option Reader :=
  match r.comment? c with
  | some spot => some { r with spot, items := r.items.tail }
  | none =>
    if c = '\'' then some (r.put .quoted c)
    else if c = '[' then some (r.put .bracketed c)
    else if c = ']' then none
    else if c = '(' then some ⟨.text .plain, [], [], r.level :: r.outer⟩
    else if c = ')' then r.close?
    else if isWordChar c then some { r with word := c :: r.word }
    else some (r.put .plain c)

/-- Reads a character. -/
def char (r : Reader) (c : Char) : Option Reader :=
  match r.spot with
  | .text .plain => r.plainChar c
  | .text .quoted => some (r.put (if c = '\'' then .plain else .quoted) c)
  | .text .bracketed =>
    if c = '[' then none else some (r.put (if c = ']' then .plain else .bracketed) c)
  | .lineComment => some (if c = '\n' then r.put .plain c else r)
  | .blockComment star =>
    some (if star && c = '/' then r.put .plain ' ' else { r with spot := .blockComment (c = '*') })

/-- Reads characters, one after the other. -/
def run (r : Reader) (cs : List Char) : Option Reader :=
  cs.foldlM char r

/-- Nothing is open that a text would have to close. -/
def Closed (r : Reader) : Prop :=
  r.spot = .text .plain ∧ r.outer = []

end Reader

/-- The reading of a text. A comment may end with it. -/
def read? (text : String) : Option Condition := do
  let r ← Reader.start.run text.toList
  if r.outer ≠ [] ∨ r.spot = .text .quoted ∨ r.spot = .text .bracketed then none
  return r.condition

/-- The text can stand in parentheses: it opens nothing that it does not close, and closes nothing
that it has not opened. -/
def IsClosed (text : String) : Prop :=
  ∃ r, Reader.start.run text.toList = some r ∧ r.Closed

/-! ## Parentheses around a text -/

namespace Reader

variable {r r' : Reader} {c : Char} {cs cs' : List Char} {levels : List (List Item)}

@[simp]
theorem run_nil (r : Reader) : r.run [] = some r := rfl

@[simp]
theorem run_cons (r : Reader) (c : Char) (cs : List Char) :
    r.run (c :: cs) = (r.char c).bind (·.run cs) := rfl

/-- Characters are read in their order. -/
theorem run_append (r : Reader) (cs cs' : List Char) :
    r.run (cs ++ cs') = (r.run cs).bind (·.run cs') := by
  rw [run, List.foldlM_append]
  rfl

/-- The reader inside of further parentheses. -/
def under (r : Reader) (levels : List (List Item)) : Reader :=
  { r with outer := r.outer ++ levels }

/-- A parenthesis is closed the same within other ones. -/
theorem close?_under (h : r.close? = some r') : (r.under levels).close? = some (r'.under levels) := by
  obtain ⟨spot, word, items, outer⟩ := r
  cases outer with
  | nil => cases h
  | cons level outer =>
    obtain rfl := Option.some.inj h
    rfl

/-- A character in plain text is read the same within parentheses. -/
theorem plainChar_under (h : r.plainChar c = some r') :
    (r.under levels).plainChar c = some (r'.under levels) := by
  have hcomment : (r.under levels).comment? c = r.comment? c := rfl
  rw [plainChar] at h
  rw [plainChar, hcomment]
  cases hbegins : r.comment? c with
  | some spot =>
    rw [hbegins] at h
    exact Option.some.inj h ▸ rfl
  | none =>
    rw [hbegins] at h
    dsimp only at h ⊢
    split_ifs at h ⊢ with hquote hbracket hstray hopen hclose hword
    · exact Option.some.inj h ▸ rfl
    · exact Option.some.inj h ▸ rfl
    · exact Option.some.inj h ▸ rfl
    -- a parenthesis is closed that was opened here, and not one of those around
    · exact close?_under h
    · exact Option.some.inj h ▸ rfl
    · exact Option.some.inj h ▸ rfl

/-- A character is read the same within parentheses. -/
theorem char_under (h : r.char c = some r') :
    (r.under levels).char c = some (r'.under levels) := by
  have hspot : (r.under levels).spot = r.spot := rfl
  rw [char] at h
  rw [char, hspot]
  split at h
  next => exact plainChar_under h
  next => exact Option.some.inj h ▸ rfl
  next =>
    by_cases hopen : c = '['
    · rw [if_pos hopen] at h
      cases h
    · rw [if_neg hopen] at h ⊢
      exact Option.some.inj h ▸ rfl
  next =>
    obtain rfl := Option.some.inj h
    split_ifs <;> rfl
  next =>
    obtain rfl := Option.some.inj h
    split_ifs <;> rfl

/-- A text that the reader passes by itself, it passes in the same way inside of parentheses. -/
theorem run_under (h : r.run cs = some r') :
    (r.under levels).run cs = some (r'.under levels) := by
  induction cs generalizing r with
  | nil =>
    obtain rfl := Option.some.inj h
    rfl
  | cons c cs ih =>
    rw [run_cons, Option.bind_eq_some_iff] at h
    obtain ⟨middle, hmiddle, hrest⟩ := h
    rw [run_cons, char_under hmiddle]
    exact ih hrest

/-- Only a dash or a star completes the beginning of a comment. -/
theorem comment?_eq_none (hline : c ≠ '-') (hblock : c ≠ '*') : r.comment? c = none := by
  refine Option.bind_eq_none_iff.2 fun a _ => ?_
  simp [commentBegun, hline, hblock]

/-- A closed text in parentheses is read as one item. -/
theorem run_group {text : String} {inner : Reader} (hspot : r.spot = .text .plain)
    (hinner : start.run text.toList = some inner) (hclosed : inner.Closed) :
    r.run ("(" ++ text ++ ")").toList
      = some ⟨.text .plain, [], inner.group :: r.level, r.outer⟩ := by
  obtain ⟨hplain, houter⟩ := hclosed
  have hopen : r.char '(' = some (start.under (r.level :: r.outer)) := by
    have hcomment : r.comment? '(' = none := comment?_eq_none (by decide) (by decide)
    rw [char, hspot]
    dsimp only
    rw [plainChar, hcomment]
    rfl
  have hclose : (inner.under (r.level :: r.outer)).char ')'
      = some ⟨.text .plain, [], inner.group :: r.level, r.outer⟩ := by
    have hcomment : (inner.under (r.level :: r.outer)).comment? ')' = none :=
      comment?_eq_none (by decide) (by decide)
    have hspot : (inner.under (r.level :: r.outer)).spot = .text .plain := hplain
    have houter : (inner.under (r.level :: r.outer)).outer = r.level :: r.outer := by
      rw [under, houter, List.nil_append]
    rw [char, hspot]
    dsimp only
    rw [plainChar, hcomment]
    show close? _ = _
    rw [close?, houter]
    rfl
  have htext : ("(" ++ text ++ ")").toList = '(' :: (text.toList ++ [')']) := by simp
  rw [htext, run_cons, hopen]
  show run _ _ = _
  rw [run_append, run_under hinner]
  show run _ _ = _
  rw [run_cons, hclose]
  rfl

end Reader

/-- The condition that a closed text is read as. -/
theorem read?_eq_some {text : String} {r : Reader} (h : Reader.start.run text.toList = some r)
    (hclosed : r.Closed) : read? text = some r.condition := by
  obtain ⟨hspot, houter⟩ := hclosed
  rw [read?, h]
  simp [hspot, houter]

/-- A closed text in parentheses is what it is without them. -/
theorem read?_parenthesized {text : String} (h : IsClosed text) :
    IsClosed ("(" ++ text ++ ")") ∧ read? ("(" ++ text ++ ")") = read? text := by
  obtain ⟨r, hr, hclosed⟩ := h
  have hgroup := Reader.run_group (r := .start) rfl hr hclosed
  refine ⟨⟨_, hgroup, rfl, rfl⟩, ?_⟩
  rw [read?_eq_some hgroup ⟨rfl, rfl⟩, read?_eq_some hr hclosed]
  rfl

/-- Of two closed texts in parentheses with `AND` between them both have to hold, whatever they hold
inside. -/
theorem read?_conjunction {a b : String} (ha : IsClosed a) (hb : IsClosed b) :
    ∃ p q, read? a = some p ∧ read? b = some q ∧ IsClosed ("(" ++ a ++ ") AND (" ++ b ++ ")")
      ∧ read? ("(" ++ a ++ ") AND (" ++ b ++ ")") = some (.and p q) := by
  obtain ⟨r, hr, hclosed⟩ := ha
  obtain ⟨s, hs, hclosed'⟩ := hb
  have htext : ("(" ++ a ++ ") AND (" ++ b ++ ")").toList
      = ("(" ++ a ++ ")").toList ++ (" AND ".toList ++ ("(" ++ b ++ ")").toList) := by
    simp
  let between : Reader :=
    ⟨.text .plain, [], [.mark ' ', .word ['A', 'N', 'D'], .mark ' ', r.group], []⟩
  have hbetween : Reader.run ⟨.text .plain, [], [r.group], []⟩ " AND ".toList = some between := rfl
  have hrun : Reader.start.run ("(" ++ a ++ ") AND (" ++ b ++ ")").toList
      = some ⟨.text .plain, [], s.group :: between.level, []⟩ := by
    rw [htext, Reader.run_append, Reader.run_group rfl hr hclosed]
    show Reader.run ⟨.text .plain, [], [r.group], []⟩ _ = _
    rw [Reader.run_append, hbetween]
    exact Reader.run_group rfl hs hclosed'
  refine ⟨r.condition, s.condition, read?_eq_some hr hclosed, read?_eq_some hs hclosed',
    ⟨_, hrun, rfl, rfl⟩, ?_⟩
  rw [read?_eq_some hrun ⟨rfl, rfl⟩]
  rfl

example : read? "a = 1 OR b BETWEEN 1 AND 2 AND [x OR y] = 'it''s' AND (c OR d)" =
    some (.or (.operand "a = 1") (.and (.and (.operand "b BETWEEN 1 AND 2")
      (.operand "[x OR y] = 'it''s'")) (.or (.operand "c") (.operand "d")))) := by
  decide +kernel

/-! ## Comments -/

/-- The region behind a character. -/
def Region.next : Region → Char → Region
  | .plain, c => if c = '\'' then .quoted else if c = '[' then .bracketed else .plain
  | .quoted, c => if c = '\'' then .plain else .quoted
  | .bracketed, c => if c = ']' then .plain else .bracketed

/-- Which region comes next depends on the character only. -/
theorem Nesting.region_char {n n' : Nesting} {c : Char} (h : n.char c = some n') :
    n'.region = n.region.next c := by
  obtain ⟨region, depth⟩ := n
  cases region with
  | plain =>
    rw [char] at h
    rw [Region.next]
    split_ifs at h ⊢ <;> exact Option.some.inj h ▸ rfl
  | quoted => exact Option.some.inj h ▸ rfl
  | bracketed =>
    rw [char] at h
    by_cases hopen : c = '['
    · rw [if_pos hopen] at h
      cases h
    · rw [if_neg hopen] at h
      exact Option.some.inj h ▸ rfl

/-- Whether no comment begins in the rest of a text, in a region and behind a character. -/
def commentFreeFrom : Region → Option Char → List Char → Bool
  | _, _, [] => true
  | region, last, c :: rest =>
    (region ≠ .plain || (last.bind (commentBegun · c)).isNone)
      && commentFreeFrom (region.next c) (some c) rest

/-- Whether no comment begins in a text, outside of quotes and brackets. -/
def isCommentFree (text : String) : Bool :=
  commentFreeFrom .plain none text.toList

namespace Reader

variable {r r' : Reader} {c : Char} {cs : List Char} {n : Nesting} {last : Option Char}

/-- The reader is where another one is that only counts parentheses, behind the last character. -/
structure Tracks (r : Reader) (n : Nesting) (last : Option Char) : Prop where
  spot : r.spot = .text n.region
  depth : r.outer.length = n.depth
  mark : ∀ a ∈ r.lastMark?, last = some a

/-- A mark that is read is the last one. -/
theorem tracks_put {region : Region} :
    (r.put region c).Tracks ⟨region, r.outer.length⟩ (some c) :=
  ⟨rfl, rfl, fun _ ha => ha⟩

/-- Without a last mark, no comment can begin. -/
theorem tracks_of_lastMark? {region : Region} (hspot : r.spot = .text region)
    (hmark : r.lastMark? = none) : r.Tracks ⟨region, r.outer.length⟩ last := by
  refine ⟨hspot, rfl, fun a ha => ?_⟩
  rw [hmark] at ha
  cases ha

/-- A character in plain text is read if the nesting allows it. -/
theorem exists_tracks_plainChar (hspot : r.spot = .text .plain) (hfree : r.comment? c = none)
    (h : Nesting.char ⟨.plain, r.outer.length⟩ c = some n) :
    ∃ r', r.plainChar c = some r' ∧ r'.Tracks n (some c) := by
  rw [plainChar, hfree]
  rw [Nesting.char] at h
  dsimp only
  split_ifs at h ⊢ with hquote hbracket hstray hopen hclose hdepth hword
  · exact ⟨_, rfl, Option.some.inj h ▸ tracks_put⟩
  · exact ⟨_, rfl, Option.some.inj h ▸ tracks_put⟩
  · exact ⟨_, rfl, Option.some.inj h ▸ tracks_of_lastMark? rfl rfl⟩
  · -- some parenthesis is open, and what it holds becomes an item
    obtain ⟨items, outer, houter⟩ := List.exists_cons_of_length_pos hdepth
    rw [houter, List.length_cons, Nat.add_sub_cancel] at h
    refine ⟨⟨.text .plain, [], r.group :: items, outer⟩, ?_, ?_⟩
    · rw [close?, houter]
    · exact Option.some.inj h ▸ tracks_of_lastMark? rfl rfl
  · exact ⟨_, rfl, Option.some.inj h ▸ tracks_of_lastMark? hspot rfl⟩
  · exact ⟨_, rfl, Option.some.inj h ▸ tracks_put⟩

/-- Without a comment, the reader goes on wherever the other one does. -/
theorem Tracks.char {n' : Nesting} (h : r.Tracks n last)
    (hfree : n.region = .plain → last.bind (commentBegun · c) = none)
    (hn : n.char c = some n') : ∃ r', r.char c = some r' ∧ r'.Tracks n' (some c) := by
  obtain ⟨region, depth⟩ := n
  obtain ⟨hspot, hdepth, hmark⟩ := h
  subst hdepth
  rw [Reader.char, hspot]
  cases region with
  | plain =>
    refine exists_tracks_plainChar hspot (Option.bind_eq_none_iff.2 fun a ha => ?_) hn
    have hlast := hfree rfl
    rw [hmark a ha] at hlast
    exact hlast
  | quoted =>
    obtain rfl := Option.some.inj hn
    exact ⟨_, rfl, tracks_put⟩
  | bracketed =>
    rw [Nesting.char] at hn
    dsimp only at hn ⊢
    split_ifs at hn ⊢ with hopen
    · exact ⟨_, rfl, Option.some.inj hn ▸ tracks_put⟩
    · exact ⟨_, rfl, Option.some.inj hn ▸ tracks_put⟩

/-- A text that closes what it opens is read, as long as no comment begins. -/
theorem Tracks.run {n' : Nesting} (h : r.Tracks n last)
    (hfree : commentFreeFrom n.region last cs = true)
    (hn : n.run (cs.map .char) = some n') :
    ∃ r' last', r.run cs = some r' ∧ r'.Tracks n' last' := by
  induction cs generalizing r n last with
  | nil =>
    obtain rfl := Option.some.inj hn
    exact ⟨r, last, rfl, h⟩
  | cons c cs ih =>
    rw [List.map_cons, Nesting.run_cons, Option.bind_eq_some_iff] at hn
    obtain ⟨middle, hmiddle, hrest⟩ := hn
    change n.char c = some middle at hmiddle
    rw [commentFreeFrom, Bool.and_eq_true, ← Nesting.region_char hmiddle] at hfree
    obtain ⟨r', hr', htracks⟩ := h.char (fun hregion => by simpa [hregion] using hfree.1) hmiddle
    obtain ⟨final, last', hrun, hfinal⟩ := ih htracks hfree.2 hrest
    refine ⟨final, last', ?_, hfinal⟩
    rw [run_cons, hr']
    exact hrun

end Reader

/-- A text is closed if its quotes, brackets and parentheses close and no comment begins in it. -/
theorem isClosed_of_closesFrom {text : String} (h : closesFrom .plain 0 text.toList = true)
    (hfree : isCommentFree text = true) : IsClosed text := by
  have hstart : Reader.start.Tracks ⟨.plain, 0⟩ none := Reader.tracks_of_lastMark? rfl rfl
  obtain ⟨r, _, hrun, htracks⟩ := hstart.run hfree ((closesFrom_iff_run ..).1 h)
  exact ⟨r, hrun, htracks.spot, List.eq_nil_of_length_eq_zero htracks.depth⟩

example : read? "(a = --1 OR b = 'x\n1) OR (c) --') AND d" =
  some (.or (.operand "a = \n1") (.operand "c")) := by
  decide +kernel

end EntitySql.Sql
