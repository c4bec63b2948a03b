import EntitySql.Proofs.Sql.Fits
import EntitySql.Proofs.Sql.Reading
import EntitySql.Proofs.Sql.Spelling

/-!
# The words of a text outside of parentheses

`Outside` reads a fragment symbol by symbol. It counts parentheses as `Nesting` does, and keeps the
word that it is in, as long as this is outside of parentheses, quotes and brackets. It stops behind
a word there that a predicate `P` refuses. What it reads to the end has `OnlyWords P`: the text
closes what it opens, and `P` admits each word outside. Anchors may only stand inside of
parentheses, so that their texts do not matter (`Fragment.OnlyWords.render`).

Pieces are put together where no word goes on from one to the next, and then the whole has such
words only if its pieces do (`onlyWords_separated_iff`). What stands in parentheses only has to
close what it opens (`Opens.append`). A text is `OrFree` if no word outside is `OR`.
-/

namespace EntitySql.Sql

theorem notMem_of_isWordChar {c : Char} (h : isWordChar c = true) : c ∉ '<' :: delimiters := by
  intro hmem
  simp only [delimiters, List.mem_cons, List.not_mem_nil, or_false] at hmem
  rcases hmem with rfl | rfl | rfl | rfl | rfl | rfl <;> exact absurd h (by decide)

/-! ## The reader -/

/-- What has been read of a text. -/
structure Outside where
  nesting : Nesting
  /-- The word at the end, last character first, if it is outside of parentheses, quotes and
  brackets. -/
  word : List Char
deriving DecidableEq

namespace Outside

/-- Before a text. -/
def start : Outside :=
  ⟨⟨.plain, 0⟩, []⟩

variable {P Q : List Char → Bool}

/-- Whether there is no word at the end, or `P` admits it. -/
def admits (P : List Char → Bool) (s : Outside) : Bool :=
  s.word = [] || P s.word.reverse

/-- Reads a character, unless it ends a word that `P` does not admit. -/
def stepChar (P : List Char → Bool) (s : Outside) (c : Char) : Option Outside := do
  let nesting ← s.nesting.char c
  if s.nesting = ⟨.plain, 0⟩ ∧ isWordChar c = true then return ⟨nesting, c :: s.word⟩
  else if s.admits P then return ⟨nesting, []⟩
  else none

/-- A character goes on the word, or it ends the word, which `P` has to admit then. -/
theorem stepChar_eq_some {s s' : Outside} {c : Char} (h : s.stepChar P c = some s') :
    ∃ n, s.nesting.char c = some n
      ∧ ((s.nesting = ⟨.plain, 0⟩ ∧ isWordChar c = true ∧ s' = ⟨n, c :: s.word⟩)
        ∨ (¬(s.nesting = ⟨.plain, 0⟩ ∧ isWordChar c = true) ∧ s.admits P = true
          ∧ s' = ⟨n, []⟩)) := by
  obtain ⟨n, hn, h⟩ := Option.bind_eq_some_iff.1 h
  refine ⟨n, hn, ?_⟩
  split_ifs at h with hword hadmits
  · exact .inl ⟨hword.1, hword.2, (Option.some.inj h).symm⟩
  · exact .inr ⟨hword, hadmits, (Option.some.inj h).symm⟩

/-- Reads a symbol. An anchor may only stand inside of parentheses. -/
def step (P : List Char → Bool) (s : Outside) : Symbol → Option Outside
  | .char c => s.stepChar P c
  | .anchor _ =>
    if s.nesting.region = .plain ∧ 0 < s.nesting.depth ∧ s.word = [] then some s else none

/-- Reads symbols, one after the other. -/
def pass (P : List Char → Bool) (s : Outside) (symbols : List Symbol) : Option Outside :=
  symbols.foldlM (step P) s

@[simp]
theorem pass_nil (s : Outside) : s.pass P [] = some s := rfl

@[simp]
theorem pass_cons (s : Outside) (symbol : Symbol) (symbols : List Symbol) :
    s.pass P (symbol :: symbols) = (s.step P symbol).bind (·.pass P symbols) := rfl

/-- Symbols are passed in their order. -/
theorem pass_append (s : Outside) (a b : List Symbol) :
    s.pass P (a ++ b) = (s.pass P a).bind (·.pass P b) := by
  rw [pass, List.foldlM_append]
  rfl

/-- More words are read if more are admitted. -/
theorem step_mono (hPQ : ∀ w, P w = true → Q w = true) {s s' : Outside} {symbol : Symbol}
    (h : s.step P symbol = some s') : s.step Q symbol = some s' := by
  cases symbol with
  | anchor => exact h
  | char c =>
    obtain ⟨n, hn, ⟨hplain, hword, rfl⟩ | ⟨hword, hadmits, rfl⟩⟩ := stepChar_eq_some h
    · rw [step, stepChar, hn]
      exact if_pos ⟨hplain, hword⟩
    · have hadmits' : s.admits Q = true := by
        rw [admits, Bool.or_eq_true] at hadmits ⊢
        exact hadmits.imp_right (hPQ _)
      rw [step, stepChar, hn, Option.bind_eq_bind, Option.bind_some, if_neg hword, if_pos hadmits']
      rfl

/-- Fewer words are harder to admit. -/
theorem pass_mono (hPQ : ∀ w, P w = true → Q w = true) {s s' : Outside} {symbols : List Symbol}
    (h : s.pass P symbols = some s') : s.pass Q symbols = some s' := by
  induction symbols generalizing s with
  | nil => exact h
  | cons symbol symbols ih =>
    rw [pass_cons, Option.bind_eq_some_iff] at h ⊢
    obtain ⟨middle, hmiddle, hrest⟩ := h
    exact ⟨middle, step_mono hPQ hmiddle, ih hrest⟩

/-- A character that is part of no word ends the word before it. -/
theorem pass_cons_of_not_word {word : List Char} {c : Char} (hc : isWordChar c = false)
    (hword : admits P ⟨⟨.plain, 0⟩, word⟩ = true) (symbols : List Symbol) :
    pass P ⟨⟨.plain, 0⟩, word⟩ (.char c :: symbols) = start.pass P (.char c :: symbols) := by
  have hstart : admits P ⟨⟨.plain, 0⟩, []⟩ = true := rfl
  rw [pass_cons, pass_cons]
  simp [step, stepChar, start, hc, hword, hstart]

/-- Inside of parentheses, the reader only counts them. -/
theorem step_inside {n n' : Nesting} {symbol : Symbol} (h : n.read symbol = some n') (k : Nat) :
    step P ⟨⟨n.region, n.depth + (k + 1)⟩, []⟩ symbol
      = some ⟨⟨n'.region, n'.depth + (k + 1)⟩, []⟩ := by
  have hlift := Nesting.read_lift h (k + 1)
  cases symbol with
  | char c =>
    change Nesting.char _ c = _ at hlift
    have hinside :
        ¬((⟨n.region, n.depth + (k + 1)⟩ : Nesting) = ⟨.plain, 0⟩ ∧ isWordChar c = true) := by
      rintro ⟨heq, -⟩
      have hdepth : n.depth + (k + 1) = 0 := congrArg Nesting.depth heq
      omega
    unfold step stepChar
    dsimp only
    rw [hlift, Option.bind_eq_bind, Option.bind_some, if_neg hinside]
    rfl
  | anchor id =>
    simp only [Nesting.read, Option.ite_none_right_eq_some, Option.some.injEq] at h
    obtain ⟨hregion, rfl⟩ := h
    exact if_pos ⟨hregion, Nat.add_pos_right _ (Nat.succ_pos k), rfl⟩

/-- Within parentheses, words are not looked at. -/
theorem pass_inside {n n' : Nesting} {symbols : List Symbol} (h : n.run symbols = some n')
    (k : Nat) :
    pass P ⟨⟨n.region, n.depth + (k + 1)⟩, []⟩ symbols
      = some ⟨⟨n'.region, n'.depth + (k + 1)⟩, []⟩ := by
  induction symbols generalizing n with
  | nil =>
    obtain rfl : n = n' := Option.some.inj h
    rfl
  | cons symbol symbols ih =>
    rw [Nesting.run_cons, Option.bind_eq_some_iff] at h
    obtain ⟨middle, hmiddle, hrest⟩ := h
    rw [pass_cons, step_inside hmiddle k]
    exact ih hrest

/-- The reader counts parentheses as `Nesting` does. -/
theorem nesting_pass {s s' : Outside} {symbols : List Symbol} (h : s.pass P symbols = some s') :
    s.nesting.run symbols = some s'.nesting := by
  induction symbols generalizing s with
  | nil =>
    obtain rfl : s = s' := Option.some.inj h
    rfl
  | cons symbol symbols ih =>
    rw [pass_cons, Option.bind_eq_some_iff] at h
    obtain ⟨middle, hmiddle, hrest⟩ := h
    have hread : s.nesting.read symbol = some middle.nesting := by
      cases symbol with
      | char c =>
        obtain ⟨n, hn, ⟨-, -, rfl⟩ | ⟨-, -, rfl⟩⟩ := stepChar_eq_some hmiddle <;> exact hn
      | anchor id =>
        simp only [step, Option.ite_none_right_eq_some, Option.some.injEq] at hmiddle
        obtain ⟨⟨hregion, -⟩, rfl⟩ := hmiddle
        exact if_pos hregion
    rw [Nesting.run_cons, hread]
    exact ih hrest

/-- Characters of words make one word with the one before them. -/
theorem pass_word {cs : List Char} (h : ∀ c ∈ cs, isWordChar c = true) (word : List Char) :
    pass P ⟨⟨.plain, 0⟩, word⟩ (cs.map .char) = some ⟨⟨.plain, 0⟩, cs.reverse ++ word⟩ := by
  induction cs generalizing word with
  | nil => rfl
  | cons c cs ih =>
    obtain ⟨hc, hcs⟩ := List.forall_mem_cons.1 h
    have hread : step P ⟨⟨.plain, 0⟩, word⟩ (.char c) = some ⟨⟨.plain, 0⟩, c :: word⟩ := by
      rw [step, stepChar, Nesting.char_of_notMem fun hmem => notMem_of_isWordChar hc (.tail _ hmem)]
      exact if_pos ⟨rfl, hc⟩
    rw [List.map_cons, pass_cons, hread]
    refine (ih hcs (c :: word)).trans ?_
    rw [List.reverse_cons, List.append_assoc]
    rfl

/-- Inside of quotes and brackets there are no words. -/
theorem step_enclosed {n n' : Nesting} {c : Char} (hn : n ≠ ⟨.plain, 0⟩)
    (h : n.char c = some n') : step P ⟨n, []⟩ (.char c) = some ⟨n', []⟩ := by
  rw [step, stepChar, h]
  exact if_neg fun hplain => hn hplain.1

end Outside

/-! ## Symbols with such words only -/

/-- The symbols close what they open, and `P` admits each word outside of parentheses, quotes and
brackets. -/
def OnlyWords (P : List Char → Bool) (symbols : List Symbol) : Prop :=
  ∃ word, Outside.start.pass P symbols = some ⟨⟨.plain, 0⟩, word⟩
    ∧ Outside.admits P ⟨⟨.plain, 0⟩, word⟩ = true

/-- The symbols lead from outside to outside, and do not end in a word. -/
def EndsWord (P : List Char → Bool) (symbols : List Symbol) : Prop :=
  Outside.start.pass P symbols = some .start

/-- The symbols lead into parentheses. -/
def Opens (P : List Char → Bool) (symbols : List Symbol) : Prop :=
  Outside.start.pass P symbols = some ⟨⟨.plain, 1⟩, []⟩

/-- The symbols lead out of parentheses, and do not end in a word. -/
def Closes (P : List Char → Bool) (symbols : List Symbol) : Prop :=
  Outside.pass P ⟨⟨.plain, 1⟩, []⟩ symbols = some .start

/-- The first symbol is a character that is part of no word. -/
def beginsApart : List Symbol → Bool
  | .char c :: _ => !isWordChar c
  | .anchor _ :: _ | [] => false

variable {P Q : List Char → Bool}

instance decidableOnlyWords (symbols : List Symbol) : Decidable (OnlyWords P symbols) :=
  match h : Outside.start.pass P symbols with
  | none => isFalse fun ⟨_, hpass, _⟩ => by rw [h] at hpass; cases hpass
  | some s =>
    decidable_of_iff (s.nesting = ⟨.plain, 0⟩ ∧ s.admits P = true) <| by
      obtain ⟨nesting, word⟩ := s
      constructor
      · rintro ⟨rfl, hword⟩
        exact ⟨word, h, hword⟩
      · rintro ⟨word', hpass, hword⟩
        obtain ⟨rfl, rfl⟩ := Outside.mk.inj (Option.some.inj (h.symm.trans hpass))
        exact ⟨rfl, hword⟩

instance decidableEndsWord (symbols : List Symbol) : Decidable (EndsWord P symbols) :=
  inferInstanceAs (Decidable (_ = _))

instance decidableOpens (symbols : List Symbol) : Decidable (Opens P symbols) :=
  inferInstanceAs (Decidable (_ = _))

instance decidableCloses (symbols : List Symbol) : Decidable (Closes P symbols) :=
  inferInstanceAs (Decidable (_ = _))

variable {a b c : List Symbol}

theorem beginsApart_append (h : beginsApart a = true) : beginsApart (a ++ b) = true := by
  cases a with
  | nil => cases h
  | cons symbol a => cases symbol <;> exact h

/-- Fewer words are harder to admit. -/
theorem OnlyWords.mono (hPQ : ∀ w, P w = true → Q w = true) (h : OnlyWords P a) :
    OnlyWords Q a := by
  obtain ⟨word, hpass, hword⟩ := h
  refine ⟨word, Outside.pass_mono hPQ hpass, ?_⟩
  rw [Outside.admits, Bool.or_eq_true] at hword ⊢
  exact hword.imp_right (hPQ _)

/-- A text whose words are looked at closes what it opens. -/
theorem OnlyWords.nesting (h : OnlyWords P a) :
    Nesting.run ⟨.plain, 0⟩ a = some ⟨.plain, 0⟩ := by
  obtain ⟨word, hpass, -⟩ := h
  exact Outside.nesting_pass hpass

/-- A text that ends no word leaves none to be admitted. -/
theorem EndsWord.onlyWords (h : EndsWord P a) : OnlyWords P a :=
  ⟨[], h, rfl⟩

/-- Texts that end no word can be put together. -/
theorem EndsWord.append (ha : EndsWord P a) (hb : EndsWord P b) : EndsWord P (a ++ b) := by
  rw [EndsWord, Outside.pass_append, ha]
  exact hb

/-- A text that ends no word leaves no trace. -/
theorem EndsWord.pass_append (ha : EndsWord P a) :
    Outside.start.pass P (a ++ b) = Outside.start.pass P b := by
  rw [Outside.pass_append, ha]
  rfl

/-- What stands in parentheses only has to close what it opens. -/
theorem Opens.append (ha : Opens P a) (hb : Shifts 0 0 b) : Opens P (a ++ b) := by
  rw [Opens, Outside.pass_append, ha]
  exact Outside.pass_inside hb.nesting 0

/-- What is opened and closed again has no words outside. -/
theorem Opens.close (ha : Opens P a) (hb : Closes P b) : EndsWord P (a ++ b) := by
  rw [EndsWord, Outside.pass_append, ha]
  exact hb

namespace OnlyWords

/-- A piece that does not go on with the word before it. -/
theorem pass_append (ha : OnlyWords P a) (hb : beginsApart b = true) :
    Outside.start.pass P (a ++ b) = Outside.start.pass P b := by
  obtain ⟨word, hpass, hword⟩ := ha
  cases b with
  | nil => cases hb
  | cons symbol b =>
    cases symbol with
    | anchor => cases hb
    | char c =>
      rw [Outside.pass_append, hpass]
      exact Outside.pass_cons_of_not_word (by simpa [beginsApart] using hb) hword b

/-- Texts can be put together if the second one begins no word. -/
theorem append (ha : OnlyWords P a) (hb : OnlyWords P b) (hapart : beginsApart b = true) :
    OnlyWords P (a ++ b) := by
  obtain ⟨word, hpass, hword⟩ := hb
  exact ⟨word, (ha.pass_append hapart).trans hpass, hword⟩

/-- If a piece closes what it opens, and the word at its end does not go on, its words are admitted
if those of the whole are. -/
theorem of_append (h : OnlyWords P (a ++ b)) (ha : Shifts 0 0 a) (hapart : beginsApart b = true) :
    OnlyWords P a := by
  obtain ⟨_, hpass, -⟩ := h
  rw [Outside.pass_append, Option.bind_eq_some_iff] at hpass
  obtain ⟨⟨nesting, word⟩, hfirst, hrest⟩ := hpass
  obtain rfl : nesting = ⟨.plain, 0⟩ :=
    Option.some.inj ((Outside.nesting_pass hfirst).symm.trans ha.nesting)
  refine ⟨word, hfirst, ?_⟩
  cases b with
  | nil => cases hapart
  | cons symbol b =>
    cases symbol with
    | anchor => cases hapart
    | char c =>
      -- the character behind the word would have stopped the reader
      have hc : isWordChar c = false := by simpa [beginsApart] using hapart
      rw [Outside.pass_cons, Option.bind_eq_some_iff] at hrest
      obtain ⟨s, hread, -⟩ := hrest
      obtain ⟨-, -, ⟨-, hwordChar, -⟩ | ⟨-, hword, -⟩⟩ := Outside.stepChar_eq_some hread
      · rw [hc] at hwordChar
        cases hwordChar
      · exact hword

end OnlyWords

/-- A piece behind one that does not end in a word. -/
theorem EndsWord.append_onlyWords (ha : EndsWord P a) (hb : OnlyWords P b) :
    OnlyWords P (a ++ b) := by
  obtain ⟨word, hpass, hword⟩ := hb
  exact ⟨word, ha.pass_append.trans hpass, hword⟩

/-- What stands apart ends the word before it. -/
theorem OnlyWords.append_endsWord (ha : OnlyWords P a) (hb : EndsWord P b)
    (hapart : beginsApart b = true) : EndsWord P (a ++ b) :=
  (ha.pass_append hapart).trans hb

/-- Two pieces with something between them that separates words. -/
theorem onlyWords_separated_iff (ha : Shifts 0 0 a) (hb : EndsWord P b)
    (hapart : beginsApart b = true) :
    OnlyWords P (a ++ b ++ c) ↔ OnlyWords P a ∧ OnlyWords P c := by
  constructor
  · intro h
    rw [List.append_assoc] at h
    have hfirst := h.of_append ha (beginsApart_append hapart)
    obtain ⟨word, hpass, hword⟩ := h
    rw [hfirst.pass_append (beginsApart_append hapart), hb.pass_append] at hpass
    exact ⟨hfirst, word, hpass, hword⟩
  · rintro ⟨hfirst, hlast⟩
    exact (hfirst.append_endsWord hb hapart).append_onlyWords hlast

/-- What stands in front of a piece does not matter if it is all right by itself. -/
theorem EndsWord.onlyWords_append_iff (ha : EndsWord P a) :
    OnlyWords P (a ++ b) ↔ OnlyWords P b := by
  rw [OnlyWords, OnlyWords, ha.pass_append]

/-- The words outside are those of the texts, if the separator has none and stands apart. -/
theorem onlyWords_intercalate_iff {separator : String} (hends : EndsWord P (textSymbols separator))
    (hapart : beginsApart (textSymbols separator) = true) {xs : List String}
    (h : ∀ x ∈ xs, Shifts 0 0 (textSymbols x)) :
    OnlyWords P (textSymbols (separator.intercalate xs))
      ↔ ∀ x ∈ xs, OnlyWords P (textSymbols x) := by
  induction xs with
  | nil =>
    rw [String.intercalate_nil]
    exact iff_of_true ⟨[], rfl, rfl⟩ (List.forall_mem_nil _)
  | cons x xs ih =>
    obtain ⟨hx, hxs⟩ := List.forall_mem_cons.1 h
    cases xs with
    | nil => rw [String.intercalate_singleton, List.forall_mem_singleton]
    | cons y ys =>
      rw [String.intercalate_cons_cons, textSymbols_append, textSymbols_append,
        onlyWords_separated_iff hx hends hapart, ih hxs, List.forall_mem_cons (l := y :: ys)]

/-! ## Names, texts and numbers -/

/-- The name is one word, which `P` admits. -/
structure IsWord (P : List Char → Bool) (x : String) : Prop where
  chars : ∀ c ∈ x.toList, isWordChar c = true
  admitted : P x.toList = true

instance decidableIsWord (x : String) : Decidable (IsWord P x) :=
  decidable_of_iff ((∀ c ∈ x.toList, isWordChar c = true) ∧ P x.toList = true)
    ⟨fun h => ⟨h.1, h.2⟩, fun h => ⟨h.1, h.2⟩⟩

variable {x y : String}

theorem IsWord.shifts (h : IsWord P x) : Shifts 0 0 (textSymbols x) :=
  shifts_of_harmless fun c hc => notMem_of_isWordChar (h.chars c hc)

/-- A word has itself as its only word. -/
theorem IsWord.onlyWords (h : IsWord P x) : OnlyWords P (textSymbols x) := by
  refine ⟨x.toList.reverse, ?_, ?_⟩
  · exact (Outside.pass_word h.chars []).trans (by rw [List.append_nil])
  · rw [Outside.admits, List.reverse_reverse, h.admitted, Bool.or_true]

/-- A word in front of a parenthesis. -/
theorem IsWord.opens (h : IsWord P x) : Opens P (textSymbols (x ++ "(")) := by
  rw [textSymbols_append, Opens, h.onlyWords.pass_append (by decide)]
  rfl

theorem isWordChar_toString_nat (n : Nat) : ∀ c ∈ (toString n).toList, isWordChar c = true := by
  intro c hc
  rw [Nat.toString_eq_ofList_toDigits, String.toList_ofList] at hc
  have hdigit := Nat.isDigit_of_mem_toDigits (by omega) (by omega) hc
  simp [isWordChar, Char.isAlphanum, hdigit]

/-- The words in a number are made of the characters that numbers are written with. -/
theorem onlyWords_of_numeric (hP : ∀ w, Numeric w → P w = true) (h : Numeric x.toList) :
    OnlyWords P (textSymbols x) := by
  have hadmits {word : List Char} (hword : Numeric word) :
      Outside.admits P ⟨⟨.plain, 0⟩, word⟩ = true := by
    rw [Outside.admits, hP word.reverse fun c hc => hword c (List.mem_reverse.1 hc), Bool.or_true]
  suffices hpass : ∀ word : List Char, Numeric word →
      ∃ word', Outside.pass P ⟨⟨.plain, 0⟩, word⟩ (textSymbols x) = some ⟨⟨.plain, 0⟩, word'⟩
        ∧ Numeric word' by
    obtain ⟨word, hpass, hword⟩ := hpass [] (List.forall_mem_nil _)
    exact ⟨word, hpass, hadmits hword⟩
  rw [textSymbols]
  generalize x.toList = cs at h
  induction cs with
  | nil => exact fun word hword => ⟨word, rfl, hword⟩
  | cons c cs ih =>
    intro word hword
    have hcs : Numeric cs := h.sublist (List.subset_cons_self c cs)
    have hc : c ∉ delimiters := fun hmem =>
      h.harmless c (List.mem_cons_self ..) (List.mem_cons_of_mem _ hmem)
    rw [List.map_cons, Outside.pass_cons, Outside.step, Outside.stepChar, Nesting.char_of_notMem hc]
    by_cases hwordChar : isWordChar c = true
    · simp only [hwordChar, Option.bind_eq_bind, Option.bind_some, and_self, if_true]
      exact ih hcs _ (List.forall_mem_cons.2 ⟨h c (List.mem_cons_self ..), hword⟩)
    · simp only [hwordChar, hadmits hword, Option.bind_eq_bind, Option.bind_some]
      exact ih hcs [] (List.forall_mem_nil _)

/-- A name in brackets has no words outside. -/
theorem endsWord_bracketed (h : Bracketable x) : EndsWord P (textSymbols (bracketed x)) := by
  have hstay : Outside.pass P ⟨⟨.bracketed, 0⟩, []⟩ (textSymbols x)
      = some ⟨⟨.bracketed, 0⟩, []⟩ := by
    have hchars := h.unbracketed
    rw [textSymbols]
    generalize x.toList = cs at hchars ⊢
    induction cs with
    | nil => rfl
    | cons c cs ih =>
      obtain ⟨⟨hopen, hclose⟩, hcs⟩ := List.forall_mem_cons.1 hchars
      have hchar : Nesting.char ⟨.bracketed, 0⟩ c = some ⟨.bracketed, 0⟩ := by
        rw [Nesting.char, if_neg hopen, if_neg hclose]
      rw [List.map_cons, Outside.pass_cons, Outside.step_enclosed (by decide) hchar]
      exact ih hcs
  rw [bracketed, textSymbols_append, textSymbols_append, List.append_assoc, EndsWord,
    Outside.pass_append]
  show Outside.pass P ⟨⟨.bracketed, 0⟩, []⟩ _ = _
  rw [Outside.pass_append, hstay]
  rfl

/-- A qualified name has no words outside. -/
theorem endsWord_qualified (hx : Bracketable x) (hy : Bracketable y) :
    EndsWord P (textSymbols (qualified x y)) := by
  have hdot : EndsWord P (textSymbols ".") := rfl
  rw [qualified, textSymbols_append, textSymbols_append]
  exact ((endsWord_bracketed hx).append hdot).append (endsWord_bracketed hy)

/-- A text in quotes has no words outside. -/
theorem endsWord_quoted (x : String) : EndsWord P (textSymbols (quoted x)) := by
  have hstay : Outside.pass P ⟨⟨.quoted, 0⟩, []⟩ ((doubledQuotes x.toList).map .char)
      = some ⟨⟨.quoted, 0⟩, []⟩ := by
    generalize x.toList = cs
    induction cs with
    | nil => rfl
    | cons c cs ih =>
      rw [doubledQuotes, List.flatMap_cons, ← doubledQuotes, List.map_append, Outside.pass_append]
      by_cases hc : c = '\''
      · -- the first quote closes, and the second one opens again
        subst hc
        exact ih
      · have hchar : Nesting.char ⟨.quoted, 0⟩ c = some ⟨.quoted, 0⟩ := by
          rw [Nesting.char, if_neg hc]
        rw [if_neg hc, List.map_cons, Outside.pass_cons, Outside.step_enclosed (by decide) hchar]
        exact ih
  rw [textSymbols_quoted, EndsWord, Outside.pass_append]
  show Outside.pass P ⟨⟨.quoted, 0⟩, []⟩ _ = _
  rw [Outside.pass_append, hstay]
  rfl

/-! ## Fragments -/

namespace Fragment

/-- `P` admits each word outside in the fragment. -/
def OnlyWords (P : List Char → Bool) (f : Fragment) : Prop :=
  Sql.OnlyWords P f.symbols

/-- The fragment leads from outside to outside, and does not end in a word. -/
def EndsWord (P : List Char → Bool) (f : Fragment) : Prop :=
  Sql.EndsWord P f.symbols

/-- The fragment leads into parentheses. -/
def Opens (P : List Char → Bool) (f : Fragment) : Prop :=
  Sql.Opens P f.symbols

/-- The fragment leads out of parentheses. -/
def Closes (P : List Char → Bool) (f : Fragment) : Prop :=
  Sql.Closes P f.symbols

/-- The fragment does not begin with a word. -/
def BeginsApart (f : Fragment) : Prop :=
  beginsApart f.symbols = true

/-- The fragment closes what it opens. -/
def Balanced (f : Fragment) : Prop :=
  Shifts 0 0 f.symbols

instance decidableOnlyWords (f : Fragment) : Decidable (f.OnlyWords P) :=
  inferInstanceAs (Decidable (Sql.OnlyWords _ _))

instance decidableEndsWord (f : Fragment) : Decidable (f.EndsWord P) :=
  inferInstanceAs (Decidable (Sql.EndsWord _ _))

instance decidableOpens (f : Fragment) : Decidable (f.Opens P) :=
  inferInstanceAs (Decidable (Sql.Opens _ _))

instance decidableCloses (f : Fragment) : Decidable (f.Closes P) :=
  inferInstanceAs (Decidable (Sql.Closes _ _))

instance decidableBeginsApart (f : Fragment) : Decidable f.BeginsApart :=
  inferInstanceAs (Decidable (_ = _))

instance decidableBalanced (f : Fragment) : Decidable f.Balanced :=
  inferInstanceAs (Decidable (Shifts _ _ _))

variable {f g h : Fragment}

theorem Balanced.append (hf : f.Balanced) (hg : g.Balanced) : (f ++ g).Balanced := by
  rw [Balanced, symbols_append]
  exact Shifts.append hf hg

/-- What is joined is balanced if all parts are. -/
theorem Balanced.join {separator : String} (hs : (ofText separator).Balanced)
    {fragments : List Fragment} (h : ∀ f ∈ fragments, f.Balanced) :
    (Fragment.join separator fragments).Balanced :=
  join_induction Shifts.nil (fun _ _ hf hg => (hf.append hs).append hg) h

theorem BeginsApart.append (hf : f.BeginsApart) : (f ++ g).BeginsApart := by
  rw [BeginsApart, symbols_append]
  exact beginsApart_append hf

theorem beginsApart_parenthesized : f.parenthesized.BeginsApart :=
  .append (.append (by decide))

namespace Opens

/-- What is balanced may stand in open parentheses. -/
theorem append (hf : f.Opens P) (hg : g.Balanced) : (f ++ g).Opens P := by
  rw [Opens, symbols_append]
  exact Sql.Opens.append hf hg

/-- What is opened and closed again has no words outside. -/
theorem close (hf : f.Opens P) (hg : g.Closes P) : (f ++ g).EndsWord P := by
  rw [EndsWord, symbols_append]
  exact Sql.Opens.close hf hg

end Opens

namespace EndsWord

theorem onlyWords (hf : f.EndsWord P) : f.OnlyWords P :=
  Sql.EndsWord.onlyWords hf

theorem append (hf : f.EndsWord P) (hg : g.EndsWord P) : (f ++ g).EndsWord P := by
  rw [EndsWord, symbols_append]
  exact Sql.EndsWord.append hf hg

/-- The words are those of the second part if the first one ends none. -/
theorem append_onlyWords (hf : f.EndsWord P) (hg : g.OnlyWords P) : (f ++ g).OnlyWords P := by
  rw [OnlyWords, symbols_append]
  exact Sql.EndsWord.append_onlyWords hf hg

/-- Parentheses enclose all words. -/
theorem parenthesized (hf : f.Balanced) : f.parenthesized.EndsWord P := by
  have hopen : (ofText "(").Opens P := Eq.refl (some _)
  have hclose : (ofText ")").Closes P := Eq.refl (some _)
  exact (hopen.append hf).close hclose

end EndsWord

namespace OnlyWords

theorem ofText {x : String} (hx : Sql.OnlyWords P (textSymbols x)) : (ofText x).OnlyWords P := by
  rw [OnlyWords, symbols_ofText]
  exact hx

/-- Parts can be put together if the second one begins no word. -/
theorem append (hf : f.OnlyWords P) (hg : g.OnlyWords P) (hapart : g.BeginsApart) :
    (f ++ g).OnlyWords P := by
  rw [OnlyWords, symbols_append]
  exact Sql.OnlyWords.append hf hg hapart

/-- What stands apart ends the word before it. -/
theorem append_endsWord (hf : f.OnlyWords P) (hg : g.EndsWord P) (hapart : g.BeginsApart) :
    (f ++ g).EndsWord P := by
  rw [EndsWord, symbols_append]
  exact Sql.OnlyWords.append_endsWord hf hg hapart

/-- Two fragments with something between them that separates words. -/
theorem between (hf : f.OnlyWords P) (hg : g.EndsWord P) (hapart : g.BeginsApart)
    (hh : h.OnlyWords P) : (f ++ g ++ h).OnlyWords P :=
  (hf.append_endsWord hg hapart).append_onlyWords hh

/-- Without parentheses, the words outside have to be admitted. -/
theorem parenthesizedIf {condition : Bool} (hbalanced : f.Balanced)
    (hf : condition = false → f.OnlyWords P) : (f.parenthesizedIf condition).OnlyWords P := by
  cases condition with
  | false => exact hf rfl
  | true => exact (EndsWord.parenthesized hbalanced).onlyWords

/-- Fragments of which none goes on with the word before it. -/
theorem append_join (hf : f.OnlyWords P) {fragments : List Fragment}
    (h : ∀ g ∈ fragments, g.OnlyWords P ∧ g.BeginsApart) :
    (f ++ Fragment.join "" fragments).OnlyWords P := by
  refine join_induction (P := fun g => ∀ f : Fragment, f.OnlyWords P → (f ++ g).OnlyWords P)
    ?_ ?_ ?_ f hf
  · intro f hf
    rwa [OnlyWords, symbols_append, symbols_empty, List.append_nil]
  · intro g g' hg hg' f hf
    have hboth := hg' _ (hg f hf)
    rw [OnlyWords, symbols_append, symbols_append] at hboth
    rwa [OnlyWords, symbols_append, symbols_append, symbols_append, symbols_ofText,
      textSymbols_empty, List.append_nil, ← List.append_assoc]
  · exact fun g hg f hf => hf.append (h g hg).1 (h g hg).2

/-- Anchors stand inside of parentheses, where it does not matter what they are replaced by. -/
theorem render {t : AnchorTable} {text : String} (hf : f.OnlyWords P)
    (hfits : Fits t .balanced 0 0 f) (h : t.render f = .ok text) :
    Sql.OnlyWords P (textSymbols text) := by
  obtain ⟨word, hpass, hword⟩ := hf
  refine ⟨word, ?_, hword⟩
  obtain ⟨texts, hall, rfl⟩ := AnchorTable.renderWithin_succ_eq_ok.1 h
  refine AnchorTable.foldlM_join hall ?_ hpass
  intro id x s u hmem hx hs
  simp only [Outside.step, Option.ite_none_right_eq_some, Option.some.injEq] at hs
  obtain ⟨⟨hregion, hdepth, hnone⟩, rfl⟩ := hs
  obtain ⟨y, hy, hshifts⟩ := hfits.settled id (Fragment.mentions_iff.2 hmem)
  obtain rfl := Except.ok.inj (hx.symm.trans hy)
  obtain ⟨⟨region, depth⟩, word'⟩ := s
  obtain rfl : region = .plain := hregion
  obtain rfl : word' = [] := hnone
  obtain ⟨k, rfl⟩ := Nat.exists_eq_succ_of_ne_zero (Nat.ne_of_gt hdepth)
  have hinside := Outside.pass_inside (P := P) (hshifts trivial).nesting k
  rw [Nat.zero_add] at hinside
  exact hinside

end OnlyWords

end Fragment

/-! ## Texts without `OR` outside -/

/-- Whether the word is another one than `OR`. -/
def isNotOr (word : List Char) : Bool :=
  !(Item.word word).isWord "OR"

/-- The symbols close what they open, and no word `OR` stands outside of parentheses, quotes and
brackets. -/
abbrev OrFree (symbols : List Symbol) : Prop :=
  OnlyWords isNotOr symbols

end EntitySql.Sql
