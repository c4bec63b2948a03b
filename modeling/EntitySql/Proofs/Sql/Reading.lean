import EntitySql.Proofs.Sql.Condition

/-!
# Reading texts one behind the other

`Reads text items` says that a text is closed, and that it has these items outside of further
parentheses. A text is read in the same way behind another one, if a blank stands between the two:
then no word goes on from one text to the other, and no comment begins with their last and first
characters. So texts are put together as their items are (`Reads.append`), and a text in parentheses
is one item (`Reads.group`). What the items mean is said by `Condition.ofItems`.
-/

namespace EntitySql.Sql

/-! ## What was read before -/

/-- The levels of a reader, with items that were read before in front of the outermost one. The
items of a level stand in reverse, the innermost level comes first. -/
def appendOutermost (before : List Item) : List Item → List (List Item) →
    List Item × List (List Item)
  | items, [] => (items ++ before, [])
  | items, level :: outer =>
    (items, (appendOutermost before level outer).1 :: (appendOutermost before level outer).2)

/-- The first item stays first. -/
theorem appendOutermost_cons (before : List Item) (item : Item) (items : List Item)
    (outer : List (List Item)) :
    appendOutermost before (item :: items) outer
      = (item :: (appendOutermost before items outer).1, (appendOutermost before items outer).2) := by
  cases outer <;> rfl

/-- No comment can begin with the last of the items. -/
def BeginsNothing (items : List Item) : Prop :=
  ∀ c, Reader.comment? ⟨.text .plain, [], items, []⟩ c = none

theorem beginsNothing_blank (items : List Item) : BeginsNothing (.mark ' ' :: items) := by
  intro c
  show commentBegun ' ' c = none
  simp [commentBegun]

namespace Reader

variable {r r' : Reader} {c : Char} {cs : List Char} {before : List Item}

/-- The reader of a text that stands behind these items. -/
def behind (r : Reader) (before : List Item) : Reader :=
  { r with
    items := (appendOutermost before r.items r.outer).1
    outer := (appendOutermost before r.items r.outer).2 }

/-- What was read before goes on the outermost level. -/
theorem level_behind (r : Reader) (before : List Item) :
    (r.behind before).level = (appendOutermost before r.level r.outer).1 := by
  unfold level behind
  by_cases hword : r.word = []
  · simp only [if_pos hword]
  · simp only [if_neg hword, appendOutermost_cons]

/-- What was read before goes on the outermost level, also from within parentheses. -/
theorem outer_behind (r : Reader) (before : List Item) :
    (r.behind before).outer = (appendOutermost before r.level r.outer).2 := by
  unfold level behind
  by_cases hword : r.word = []
  · simp only [if_pos hword]
  · simp only [if_neg hword, appendOutermost_cons]

/-- A mark is read the same, whatever was read before. -/
theorem put_behind (region : Region) :
    (r.behind before).put region c = (r.put region c).behind before := by
  have hput : (r.put region c).behind before
      = ⟨.text region, [], .mark c :: (appendOutermost before r.level r.outer).1,
        (appendOutermost before r.level r.outer).2⟩ := by
    simp only [put, behind, appendOutermost_cons]
  rw [hput, ← level_behind, ← outer_behind]
  rfl

/-- Whether a comment begins depends on the last item only. -/
theorem comment?_behind (hbefore : BeginsNothing before) :
    (r.behind before).comment? c = r.comment? c := by
  obtain ⟨spot, word, items, outer⟩ := r
  cases word with
  | cons w word => rfl
  | nil =>
    cases outer with
    | cons level outer => rfl
    | nil =>
      cases items with
      | cons item items => cases item <;> rfl
      -- nothing has been read yet, so it is the items before that count
      | nil => exact hbefore c

/-- A parenthesis is closed the same, whatever was read before. -/
theorem close?_behind (h : r.close? = some r') :
    (r.behind before).close? = some (r'.behind before) := by
  obtain ⟨spot, word, items, outer⟩ := r
  cases outer with
  | nil => cases h
  | cons level outer =>
    obtain rfl := Option.some.inj h
    simp only [behind, close?, appendOutermost, appendOutermost_cons]
    rfl

/-- A character in plain text is read the same, whatever was read before. -/
theorem plainChar_behind (hbefore : BeginsNothing before) (h : r.plainChar c = some r') :
    (r.behind before).plainChar c = some (r'.behind before) := by
  have hcomment : (r.behind before).comment? c = r.comment? c := comment?_behind hbefore
  have hopen : (⟨.text .plain, [], [], (r.behind before).level :: (r.behind before).outer⟩ : Reader)
      = behind ⟨.text .plain, [], [], r.level :: r.outer⟩ before := by
    rw [level_behind, outer_behind]
    rfl
  unfold plainChar at h ⊢
  rw [hcomment]
  cases hbegins : r.comment? c with
  | some spot =>
    rw [hbegins] at h
    obtain rfl := Option.some.inj h
    -- the comment takes the last character with it, which was read here and not before
    obtain ⟨_, word, items, outer⟩ := r
    cases word with
    | cons w word => cases hbegins
    | nil =>
      cases items with
      | nil => cases hbegins
      | cons item items => simp only [behind, appendOutermost_cons, List.tail_cons]
  | none =>
    rw [hbegins] at h
    dsimp only at h ⊢
    rw [hopen, put_behind, put_behind, put_behind]
    split_ifs at h ⊢
    · exact Option.some.inj h ▸ rfl
    · exact Option.some.inj h ▸ rfl
    · exact Option.some.inj h ▸ rfl
    · exact close?_behind h
    · exact Option.some.inj h ▸ rfl
    · exact Option.some.inj h ▸ rfl

/-- A character is read the same, whatever was read before. -/
theorem char_behind (hbefore : BeginsNothing before) (h : r.char c = some r') :
    (r.behind before).char c = some (r'.behind before) := by
  have hspot : (r.behind before).spot = r.spot := rfl
  unfold char at h ⊢
  rw [hspot]
  split at h
  next => exact plainChar_behind hbefore h
  next =>
    rw [put_behind]
    exact Option.some.inj h ▸ rfl
  next =>
    by_cases hopen : c = '['
    · rw [if_pos hopen] at h
      cases h
    · rw [if_neg hopen] at h ⊢
      rw [put_behind]
      exact Option.some.inj h ▸ rfl
  next =>
    obtain rfl := Option.some.inj h
    rw [put_behind]
    split_ifs <;> rfl
  next =>
    obtain rfl := Option.some.inj h
    rw [put_behind]
    split_ifs <;> rfl

/-- A text that the reader passes by itself, it passes in the same way behind another text. -/
theorem run_behind (hbefore : BeginsNothing before) (h : r.run cs = some r') :
    (r.behind before).run cs = some (r'.behind before) := by
  induction cs generalizing r with
  | nil =>
    obtain rfl := Option.some.inj h
    rfl
  | cons c cs ih =>
    rw [run_cons, Option.bind_eq_some_iff] at h
    obtain ⟨middle, hmiddle, hrest⟩ := h
    rw [run_cons, char_behind hbefore hmiddle]
    exact ih hrest

end Reader

/-! ## The items of a text -/

/-- The text is closed, and has these items outside of further parentheses. -/
def Reads (text : String) (items : List Item) : Prop :=
  ∃ r, Reader.start.run text.toList = some r ∧ r.Closed ∧ r.level.reverse = items

/-- A text is closed if it can be read. -/
theorem isClosed_iff_exists_reads {text : String} : IsClosed text ↔ ∃ items, Reads text items :=
  ⟨fun ⟨r, hr, hclosed⟩ => ⟨_, r, hr, hclosed, rfl⟩, fun ⟨_, r, hr, hclosed, _⟩ => ⟨r, hr, hclosed⟩⟩

namespace Reads

variable {x y : String} {items items' : List Item}

/-- A text is read as its items are. -/
theorem read? (h : Reads x items) : Sql.read? x = some (.ofItems items) := by
  obtain ⟨r, hr, hclosed, rfl⟩ := h
  exact read?_eq_some hr hclosed

/-- A text in parentheses is one item. -/
theorem group (h : Reads x items) :
    Reads ("(" ++ x ++ ")") [.group (items.flatMap (·.text)) (.ofItems items)] := by
  obtain ⟨r, hr, hclosed, rfl⟩ := h
  exact ⟨_, Reader.run_group rfl hr hclosed, ⟨rfl, rfl⟩, rfl⟩

/-- Two texts with a blank between them. -/
theorem append (hx : Reads x items) (hy : Reads y items') :
    Reads (x ++ " " ++ y) (items ++ .mark ' ' :: items') := by
  obtain ⟨r, hr, ⟨hspot, houter⟩, rfl⟩ := hx
  obtain ⟨s, hs, ⟨hspot', houter'⟩, rfl⟩ := hy
  have hblank : r.char ' ' = some (Reader.start.behind (.mark ' ' :: r.level)) := by
    have hcomment : r.comment? ' ' = none := Reader.comment?_eq_none (by decide) (by decide)
    unfold Reader.char
    rw [hspot]
    dsimp only
    unfold Reader.plainChar
    rw [hcomment]
    show some (r.put .plain ' ') = _
    rw [Reader.put, houter]
    rfl
  refine ⟨s.behind (.mark ' ' :: r.level), ?_, ⟨hspot', ?_⟩, ?_⟩
  · have htext : (x ++ " " ++ y).toList = x.toList ++ ' ' :: y.toList := by simp
    rw [htext, Reader.run_append, hr]
    show r.run (' ' :: y.toList) = _
    rw [Reader.run_cons, hblank]
    exact Reader.run_behind (beginsNothing_blank _) hs
  · rw [Reader.outer_behind, houter']
    rfl
  · rw [Reader.level_behind, houter', appendOutermost]
    simp

end Reads

/-! ## The text of the items -/

namespace Reader

variable {r r' : Reader} {c : Char} {cs : List Char} {n n' : Nesting} {last : Option Char}

/-- What was read, as the items tell it. -/
def shown (r : Reader) : List Char :=
  (r.outer.reverse.flatMap fun level => level.reverse.flatMap (·.text) ++ ['('])
    ++ r.level.reverse.flatMap (·.text)

/-- A mark is shown where it is read. -/
theorem shown_put (region : Region) (c : Char) : (r.put region c).shown = r.shown ++ [c] := by
  simp [shown, put, level, Item.text]

theorem shown_word (c : Char) : shown { r with word := c :: r.word } = r.shown ++ [c] := by
  unfold shown level
  by_cases hword : r.word = []
  · simp [hword, Item.text]
  · simp [hword, Item.text]

/-- A character in plain text is shown where it is read, unless it begins a comment. -/
theorem shown_plainChar (hcomment : r.comment? c = none) (h : r.plainChar c = some r') :
    r'.shown = r.shown ++ [c] := by
  unfold plainChar at h
  rw [hcomment] at h
  dsimp only at h
  split_ifs at h with _ _ _ hopen hclose
  · exact Option.some.inj h ▸ shown_put ..
  · exact Option.some.inj h ▸ shown_put ..
  · obtain rfl := Option.some.inj h
    simp [shown, level, hopen]
  · -- the innermost parentheses become one item, with the text that they had
    obtain ⟨spot, word, items, outer⟩ := r
    cases outer with
    | nil => cases h
    | cons items' outer =>
      obtain rfl := Option.some.inj h
      simp [shown, group, Item.text, hclose, level]
  · exact Option.some.inj h ▸ shown_word c
  · exact Option.some.inj h ▸ shown_put ..

/-- A character is shown where it is read, unless it begins a comment. -/
theorem Tracks.shown_char (htracks : r.Tracks n last)
    (hfree : n.region = .plain → last.bind (commentBegun · c) = none)
    (h : r.char c = some r') : r'.shown = r.shown ++ [c] := by
  obtain ⟨hspot, -, hmark⟩ := htracks
  unfold Reader.char at h
  rw [hspot] at h
  cases hregion : n.region with
  | plain =>
    rw [hregion] at h
    refine shown_plainChar (Option.bind_eq_none_iff.2 fun a ha => ?_) h
    have hlast := hfree hregion
    rwa [hmark a ha] at hlast
  | quoted =>
    rw [hregion] at h
    exact Option.some.inj h ▸ shown_put ..
  | bracketed =>
    rw [hregion] at h
    dsimp only at h
    split_ifs at h
    · exact Option.some.inj h ▸ shown_put ..
    · exact Option.some.inj h ▸ shown_put ..

/-- Without comments, items show the whole text, by induction on it. -/
theorem Tracks.shown_run (htracks : r.Tracks n last)
    (hfree : commentFreeFrom n.region last cs = true) (hn : n.run (cs.map .char) = some n')
    (h : r.run cs = some r') : r'.shown = r.shown ++ cs := by
  induction cs generalizing r n last with
  | nil =>
    obtain rfl := Option.some.inj h
    exact (List.append_nil _).symm
  | cons c cs ih =>
    rw [List.map_cons, Nesting.run_cons, Option.bind_eq_some_iff] at hn
    obtain ⟨middle, hmiddle, hrest⟩ := hn
    change n.char c = some middle at hmiddle
    rw [run_cons, Option.bind_eq_some_iff] at h
    obtain ⟨next, hnext, h⟩ := h
    rw [commentFreeFrom, Bool.and_eq_true, ← Nesting.region_char hmiddle] at hfree
    have hbegins : n.region = .plain → last.bind (commentBegun · c) = none := fun hregion => by
      simpa [hregion] using hfree.1
    obtain ⟨next', hnext', htracks'⟩ := htracks.char hbegins hmiddle
    obtain rfl := Option.some.inj (hnext.symm.trans hnext')
    rw [ih htracks' hfree.2 hrest h, htracks.shown_char hbegins hnext, List.append_assoc]
    rfl

end Reader

/-- A text without comments that closes what it opens is the text of its items. -/
theorem exists_reads_of_closesFrom {text : String} (h : closesFrom .plain 0 text.toList = true)
    (hfree : isCommentFree text = true) :
    ∃ items, Reads text items ∧ items.flatMap (·.text) = text.toList := by
  obtain ⟨r, hr, hclosed⟩ := isClosed_of_closesFrom h hfree
  have hstart : Reader.start.Tracks ⟨.plain, 0⟩ none := Reader.tracks_of_lastMark? rfl rfl
  have hshown := hstart.shown_run hfree ((closesFrom_iff_run ..).1 h) hr
  refine ⟨_, ⟨r, hr, hclosed, rfl⟩, ?_⟩
  rw [Reader.shown, hclosed.2] at hshown
  exact hshown

end EntitySql.Sql
