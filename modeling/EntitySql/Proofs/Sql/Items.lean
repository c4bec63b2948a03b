import EntitySql.Proofs.Sql.Outside

/-!
# The items of a text and its words

Where no comment begins, the reader of conditions makes an item of each word that `Outside` looks
at. So if `P` admits the words of a text outside of parentheses, it admits those among its items
(`OnlyWords.exists_reads`). No comment begins in the pieces of a text if none begins in the whole.
-/

namespace EntitySql.Sql

/-! ## Both readers side by side -/

/-- Whether an item is no word, or `P` admits it. -/
def Item.isAdmitted (P : List Char → Bool) : Item → Bool
  | .word chars => P chars
  | .mark _ | .group .. => true

/-- The reader of conditions has the words outside of parentheses that `Outside` has, and `P` admits
them. -/
structure Reader.Beside (P : List Char → Bool) (r : Reader) (s : Outside) : Prop where
  outermost : ∀ item ∈ r.outer.getLast?.getD r.items, item.isAdmitted P = true
  word : r.outer = [] → r.word = s.word
  apart : r.outer ≠ [] → s.word = []

namespace Reader

variable {P : List Char → Bool} {r r' : Reader} {s s' : Outside} {c : Char} {cs : List Char}
  {last : Option Char}

/-- Items on the outermost level are admitted once the last word is. -/
theorem Beside.level (h : r.Beside P s) (hadmits : s.admits P = true) :
    ∀ item ∈ r.outer.getLast?.getD r.level, item.isAdmitted P = true := by
  by_cases houter : r.outer = []
  · have hitems := h.outermost
    rw [houter] at hitems ⊢
    show ∀ item ∈ r.level, _
    rw [Reader.level]
    split
    · exact hitems
    next hne =>
      rw [h.word houter] at hne ⊢
      have hword : P s.word.reverse = true := by simpa [Outside.admits, hne] using hadmits
      exact List.forall_mem_cons.2 ⟨hword, hitems⟩
  · have hitems := h.outermost
    obtain ⟨level, hlevel⟩ := Option.isSome_iff_exists.1 (List.getLast?_isSome.2 houter)
    rw [hlevel] at hitems ⊢
    exact hitems

/-- A character that is part of no word. -/
theorem Beside.put (h : r.Beside P s) (hadmits : s.admits P = true) (region : Region)
    (n : Nesting) :
    (r.put region c).Beside P ⟨n, []⟩ := by
  have hlevel := h.level hadmits
  refine ⟨?_, fun _ => rfl, fun _ => rfl⟩
  show ∀ item ∈ r.outer.getLast?.getD (.mark c :: r.level), item.isAdmitted P = true
  cases hlast : r.outer.getLast? with
  | none =>
    rw [hlast] at hlevel
    exact List.forall_mem_cons.2 ⟨rfl, hlevel⟩
  | some level =>
    rw [hlast] at hlevel
    exact hlevel

/-- The innermost parentheses open or close. -/
theorem Beside.open (h : r.Beside P s) (hadmits : s.admits P = true) (n : Nesting) :
    Reader.Beside P ⟨.text .plain, [], [], r.level :: r.outer⟩ ⟨n, []⟩ := by
  refine ⟨?_, nofun, fun _ => rfl⟩
  rw [List.getLast?_cons]
  exact h.level hadmits

/-- A parenthesis that is closed is an item without words. -/
theorem Beside.close? (h : r.Beside P s) (n : Nesting) (hr : r.close? = some r') :
    r'.Beside P ⟨n, []⟩ := by
  obtain ⟨spot, word, items, outer⟩ := r
  cases outer with
  | nil => cases hr
  | cons level outer =>
    obtain rfl := Option.some.inj hr
    refine ⟨?_, fun _ => rfl, fun _ => rfl⟩
    have houtermost := h.outermost
    rw [List.getLast?_cons] at houtermost
    cases hlast : outer.getLast? with
    | none =>
      rw [hlast] at houtermost
      exact List.forall_mem_cons.2 ⟨rfl, houtermost⟩
    | some other =>
      rw [hlast] at houtermost
      exact houtermost

/-- Both readers take a character in plain text alike. -/
theorem Beside.plainChar (h : r.Beside P s) (hdepth : r.outer.length = s.nesting.depth)
    (hregion : s.nesting.region = .plain) (hcomment : r.comment? c = none)
    (hs : s.stepChar P c = some s') (hr : r.plainChar c = some r') : r'.Beside P s' := by
  unfold Reader.plainChar at hr
  rw [hcomment] at hr
  dsimp only at hr
  obtain ⟨n, -, ⟨hplain, hword, rfl⟩ | ⟨hword, hadmits, rfl⟩⟩ := Outside.stepChar_eq_some hs
  · -- a word goes on, and both readers are outside
    have houter : r.outer = [] := by
      rw [hplain] at hdepth
      exact List.eq_nil_of_length_eq_zero hdepth
    split_ifs at hr with hquote hbracket hstray hopen hclose
    · exact absurd hword (by rw [hquote]; decide)
    · exact absurd hword (by rw [hbracket]; decide)
    · exact absurd hword (by rw [hopen]; decide)
    · exact absurd hword (by rw [hclose]; decide)
    · obtain rfl := Option.some.inj hr
      exact ⟨h.outermost, fun _ => congrArg (c :: ·) (h.word houter), fun hne => absurd houter hne⟩
  · split_ifs at hr with hquote hbracket hstray hopen hclose hwordChar
    · exact Option.some.inj hr ▸ h.put hadmits _ n
    · exact Option.some.inj hr ▸ h.put hadmits _ n
    · exact Option.some.inj hr ▸ h.open hadmits n
    · exact h.close? n hr
    · -- a word goes on inside of parentheses
      obtain rfl := Option.some.inj hr
      have houter : r.outer ≠ [] := by
        intro houter
        rw [houter] at hdepth
        refine hword ⟨?_, hwordChar⟩
        obtain ⟨⟨region, depth⟩, word⟩ := s
        obtain rfl : region = .plain := hregion
        obtain rfl : 0 = depth := hdepth
        rfl
      exact ⟨h.outermost, fun hnil => absurd hnil houter, fun _ => rfl⟩
    · exact Option.some.inj hr ▸ h.put hadmits _ n

/-- Both readers take a character alike. -/
theorem Beside.char (h : r.Beside P s) (htracks : r.Tracks s.nesting last)
    (hfree : s.nesting.region = .plain → last.bind (commentBegun · c) = none)
    (hs : s.stepChar P c = some s') (hr : r.char c = some r') : r'.Beside P s' := by
  obtain ⟨hspot, hdepth, hmark⟩ := htracks
  unfold Reader.char at hr
  rw [hspot] at hr
  by_cases hregion : s.nesting.region = .plain
  · rw [hregion] at hr
    refine h.plainChar hdepth hregion (Option.bind_eq_none_iff.2 fun a ha => ?_) hs hr
    have hlast := hfree hregion
    rwa [hmark a ha] at hlast
  · -- inside of quotes and brackets
    obtain ⟨n, -, ⟨hplain, -, -⟩ | ⟨-, hadmits, rfl⟩⟩ := Outside.stepChar_eq_some hs
    · exact absurd (congrArg Nesting.region hplain) hregion
    · cases hinside : s.nesting.region with
      | plain => exact absurd hinside hregion
      | quoted =>
        rw [hinside] at hr
        exact Option.some.inj hr ▸ h.put hadmits _ n
      | bracketed =>
        rw [hinside] at hr
        dsimp only at hr
        split_ifs at hr
        · exact Option.some.inj hr ▸ h.put hadmits _ n
        · exact Option.some.inj hr ▸ h.put hadmits _ n

/-- Both readers take a text alike, by induction on it. -/
theorem Beside.run (h : r.Beside P s) (htracks : r.Tracks s.nesting last)
    (hfree : commentFreeFrom s.nesting.region last cs = true)
    (hs : s.pass P (cs.map .char) = some s') :
    ∃ r' last', r.run cs = some r' ∧ r'.Tracks s'.nesting last' ∧ r'.Beside P s' := by
  induction cs generalizing r s last with
  | nil =>
    obtain rfl := Option.some.inj hs
    exact ⟨r, last, rfl, htracks, h⟩
  | cons c cs ih =>
    rw [List.map_cons, Outside.pass_cons, Option.bind_eq_some_iff] at hs
    obtain ⟨middle, hmiddle, hrest⟩ := hs
    change s.stepChar P c = some middle at hmiddle
    have hnesting : s.nesting.char c = some middle.nesting := by
      obtain ⟨n, hn, ⟨-, -, rfl⟩ | ⟨-, -, rfl⟩⟩ := Outside.stepChar_eq_some hmiddle <;> exact hn
    rw [commentFreeFrom, Bool.and_eq_true, ← Nesting.region_char hnesting] at hfree
    have hbegins : s.nesting.region = .plain → last.bind (commentBegun · c) = none :=
      fun hregion => by simpa [hregion] using hfree.1
    obtain ⟨next, hnext, htracks'⟩ := htracks.char hbegins hnesting
    obtain ⟨r', last', hrun, hend⟩ :=
      ih (h.char htracks hbegins hmiddle hnext) htracks' hfree.2 hrest
    refine ⟨r', last', ?_, hend⟩
    rw [run_cons, hnext]
    exact hrun

end Reader

/-- A text without comments is the text of its items, and `P` admits the words among them if it
admits those outside. -/
theorem OnlyWords.exists_reads {P : List Char → Bool} {text : String}
    (h : OnlyWords P (textSymbols text)) (hfree : isCommentFree text = true) :
    ∃ items, Reads text items ∧ items.flatMap (·.text) = text.toList
      ∧ ∀ item ∈ items, item.isAdmitted P = true := by
  obtain ⟨word, hpass, hword⟩ := h
  have hnesting := Outside.nesting_pass hpass
  have hstart : Reader.start.Tracks ⟨.plain, 0⟩ none := Reader.tracks_of_lastMark? rfl rfl
  have hbeside : Reader.start.Beside P .start := ⟨List.forall_mem_nil _, fun _ => rfl, fun _ => rfl⟩
  obtain ⟨r, last, hr, htracks, hbeside⟩ := hbeside.run hstart hfree hpass
  have houter : r.outer = [] := List.eq_nil_of_length_eq_zero htracks.depth
  have hshown := hstart.shown_run hfree hnesting hr
  rw [Reader.shown, houter] at hshown
  refine ⟨_, ⟨r, hr, ⟨htracks.spot, houter⟩, rfl⟩, hshown, fun item hitem => ?_⟩
  have hlevel := hbeside.level hword
  rw [houter] at hlevel
  exact hlevel item (List.mem_reverse.1 hitem)

/-! ## Comments in the pieces of a text -/

/-- No comment begins in the pieces of a text if none begins in the whole. -/
theorem commentFreeFrom_of_append {n n' : Nesting} {last : Option Char} {cs ds : List Char}
    (hn : n.run (cs.map .char) = some n')
    (h : commentFreeFrom n.region last (cs ++ ds) = true) :
    commentFreeFrom n.region last cs = true
      ∧ commentFreeFrom n'.region (cs.getLast?.or last) ds = true := by
  induction cs generalizing n last with
  | nil =>
    obtain rfl : n = n' := Option.some.inj hn
    exact ⟨rfl, h⟩
  | cons c cs ih =>
    rw [List.map_cons, Nesting.run_cons, Option.bind_eq_some_iff] at hn
    obtain ⟨middle, hmiddle, hrest⟩ := hn
    change n.char c = some middle at hmiddle
    rw [List.cons_append, commentFreeFrom, Bool.and_eq_true,
      ← Nesting.region_char hmiddle] at h
    obtain ⟨hcs, hds⟩ := ih hrest h.2
    rw [commentFreeFrom, Bool.and_eq_true, ← Nesting.region_char hmiddle]
    refine ⟨⟨h.1, hcs⟩, ?_⟩
    rw [List.getLast?_cons]
    cases hlast : cs.getLast? with
    | none => rwa [hlast] at hds
    | some d => rwa [hlast] at hds

/-- What stands before a text only matters if it can begin a comment. -/
theorem commentFreeFrom_of_some {region : Region} {a : Char} {cs : List Char}
    (ha : ∀ c, commentBegun a c = none) (h : commentFreeFrom region (some a) cs = true) :
    commentFreeFrom region none cs = true := by
  cases cs with
  | nil => rfl
  | cons c cs =>
    rw [commentFreeFrom, Option.bind_some, ha] at h
    exact h

/-- Two texts with a blank between them are closed if each of them is. -/
theorem nesting_separated {x y : String}
    (hx : Nesting.run ⟨.plain, 0⟩ (textSymbols x) = some ⟨.plain, 0⟩)
    (hy : Nesting.run ⟨.plain, 0⟩ (textSymbols y) = some ⟨.plain, 0⟩) :
    Nesting.run ⟨.plain, 0⟩ (textSymbols (x ++ " " ++ y)) = some ⟨.plain, 0⟩ := by
  rw [textSymbols_append, textSymbols_append, Nesting.run_append, Nesting.run_append, hx]
  exact hy

/-- No comment begins on either side of a blank if none begins in the whole. -/
theorem isCommentFree_of_separated {x y : String}
    (hx : Nesting.run ⟨.plain, 0⟩ (textSymbols x) = some ⟨.plain, 0⟩)
    (h : isCommentFree (x ++ " " ++ y) = true) :
    isCommentFree x = true ∧ isCommentFree y = true := by
  rw [isCommentFree, String.append_assoc, String.toList_append] at h
  obtain ⟨hbefore, hafter⟩ := commentFreeFrom_of_append (n := ⟨.plain, 0⟩) hx h
  refine ⟨hbefore, ?_⟩
  rw [String.toList_append] at hafter
  have hblank : Nesting.run ⟨.plain, 0⟩ (" ".toList.map .char) = some ⟨.plain, 0⟩ := by decide
  have hy := (commentFreeFrom_of_append (n := ⟨.plain, 0⟩) hblank hafter).2
  exact commentFreeFrom_of_some (a := ' ') (by simp [commentBegun]) hy

end EntitySql.Sql
