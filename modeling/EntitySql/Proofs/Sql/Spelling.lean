import EntitySql.Decimal.Layout
import EntitySql.Proofs.Sql.Scan
import EntitySql.Schema.ValueType
import EntitySql.Sql.Quoting

/-!
# Texts that may stand in SQL

What a statement contributes to its SQL are names and texts. A name is written in brackets, or bare,
and a text in quotes. `Unmarked`, `Bracketable` and `Bare` say of which characters each may consist.
The lemmas below turn this into `Shifts`: a bracketed name and a quoted text fit wherever a value
fits, and so do numbers. A bare name does not, since it can end inside a mark, but it does together
with the character behind it.
-/

namespace EntitySql.Sql

variable {a b : Nat} {x y : String}

/-- The text does not hold the mark of an anchor. -/
def Unmarked (x : String) : Prop :=
  occursIn anchorMark x.toList = false

/-- The name may stand in brackets. -/
structure Bracketable (x : String) : Prop where
  unbracketed : ∀ c ∈ x.toList, c ≠ '[' ∧ c ≠ ']'
  unmarked : Unmarked x

/-- The characters that open or close something. -/
def delimiters : List Char :=
  ['\'', '[', ']', '(', ')']

/-- The name may stand as it is. -/
structure Bare (x : String) : Prop where
  undelimited : ∀ c ∈ x.toList, c ∉ delimiters
  unmarked : Unmarked x

instance (x : String) : Decidable (Unmarked x) :=
  inferInstanceAs (Decidable (_ = _))

-- There are finitely many characters, and a statement about those of a list must not be decided by
-- going over all of them.
instance decidableForallChar {p : Char → Prop} [DecidablePred p] (cs : List Char) :
    Decidable (∀ c ∈ cs, p c) :=
  List.decidableBAll p cs

instance (x : String) : Decidable (Bracketable x) :=
  decidable_of_iff ((∀ c ∈ x.toList, c ≠ '[' ∧ c ≠ ']') ∧ Unmarked x)
    ⟨fun h => ⟨h.1, h.2⟩, fun h => ⟨h.1, h.2⟩⟩

instance (x : String) : Decidable (Bare x) :=
  decidable_of_iff ((∀ c ∈ x.toList, c ∉ delimiters) ∧ Unmarked x)
    ⟨fun h => ⟨h.1, h.2⟩, fun h => ⟨h.1, h.2⟩⟩

/-! ## Marks -/

/-- A text is unmarked if no mark of an anchor is read in it. -/
theorem unmarked_iff : Unmarked x ↔ ∃ progress, runMark 0 (textSymbols x) = some progress := by
  have h := runMark_isSome (show 0 < 7 by omega) x.toList
  rw [← textSymbols, List.take_zero, List.nil_append] at h
  rw [Unmarked, ← Option.isSome_iff_exists, h, Bool.not_eq_true']

/-- Texts without a mark make one without a mark if the second cannot go on with a mark. -/
theorem Unmarked.append (hx : Unmarked x) (hy : Unmarked y) {c : Char} {rest : List Char}
    (hc : y.toList = c :: rest) (hmark : c ∉ anchorMark) : Unmarked (x ++ y) := by
  obtain ⟨i, hi⟩ := unmarked_iff.1 hx
  obtain ⟨j, hj⟩ := unmarked_iff.1 hy
  refine unmarked_iff.2 ⟨j, ?_⟩
  rw [textSymbols, hc, List.map_cons, runMark_cons, readMark_of_notMem hmark] at hj
  rw [textSymbols_append, runMark_append, hi, textSymbols, hc, List.map_cons]
  show runMark i _ = _
  rw [runMark_cons, readMark_of_notMem hmark, hj]

/-- Between two characters outside of the mark, a text without a mark leaves no trace. -/
theorem runMark_enclosed {first last : Char} (hfirst : first ∉ anchorMark)
    (hlast : last ∉ anchorMark) {symbols : List Symbol} {progress : Nat}
    (h : runMark 0 symbols = some progress) :
    runMark 0 (.char first :: (symbols ++ [.char last])) = some 0 := by
  rw [runMark_cons, readMark_of_notMem hfirst]
  show runMark 0 _ = _
  rw [runMark_append, h]
  show (readMark progress (.char last)).bind _ = _
  rw [readMark_of_notMem hlast]
  rfl

/-- Names can be put together where no mark of an anchor comes about. -/
theorem Bracketable.append (hx : Bracketable x) (hy : Bracketable y) {c : Char}
    {rest : List Char} (hc : y.toList = c :: rest) (hmark : c ∉ anchorMark) :
    Bracketable (x ++ y) := by
  refine ⟨?_, hx.unmarked.append hy.unmarked hc hmark⟩
  intro d hd
  rw [String.toList_append, List.mem_append] at hd
  exact hd.elim (hx.unbracketed d) (hy.unbracketed d)

/-- What may stand bare may stand in brackets. -/
theorem Bare.bracketable (hx : Bare x) : Bracketable x := by
  refine ⟨fun c hc => ?_, hx.unmarked⟩
  have h := hx.undelimited c hc
  constructor <;> rintro rfl <;> exact h (by decide)

/-! ## Names and texts -/

/-- Texts with separators between them close what they open if each of them does. -/
theorem shifts_intercalate {separator : String} (hs : Shifts a a (textSymbols separator))
    {xs : List String} (h : ∀ x ∈ xs, Shifts a a (textSymbols x)) :
    Shifts a a (textSymbols (separator.intercalate xs)) := by
  induction xs with
  | nil => exact .nil
  | cons x xs ih =>
    have hx := h x (List.mem_cons_self ..)
    cases xs with
    | nil =>
      rw [String.intercalate_singleton]
      exact hx
    | cons y ys =>
      rw [String.intercalate_cons_cons]
      exact (hx.text hs).text (ih fun z hz => h z (List.mem_cons_of_mem _ hz))

/-- Other characters than delimiters change nothing. -/
theorem Nesting.char_of_notMem {c : Char} (h : c ∉ delimiters) (depth : Nat) :
    Nesting.char ⟨.plain, depth⟩ c = some ⟨.plain, depth⟩ := by
  simp only [delimiters, List.mem_cons, List.not_mem_nil, or_false, not_or] at h
  rw [char, if_neg h.1, if_neg h.2.1, if_neg h.2.2.1, if_neg h.2.2.2.1, if_neg h.2.2.2.2]

theorem Nesting.run_map_char {s : Nesting} {cs : List Char} (h : ∀ c ∈ cs, s.char c = some s) :
    s.run (cs.map .char) = some s := by
  induction cs with
  | nil => rfl
  | cons c cs ih =>
    rw [List.map_cons, run_cons, read, h c (by simp)]
    exact ih fun d hd => h d (by simp [hd])

/-- A name in brackets fits wherever a value fits. -/
theorem shifts_bracketed (h : Bracketable x) : Shifts a a (textSymbols (bracketed x)) := by
  rw [bracketed, textSymbols_append, textSymbols_append]
  constructor
  · have hstay : Nesting.run ⟨.bracketed, a⟩ (textSymbols x) = some ⟨.bracketed, a⟩ := by
      refine Nesting.run_map_char fun c hc => ?_
      obtain ⟨h1, h2⟩ := h.unbracketed c hc
      rw [Nesting.char, if_neg h1, if_neg h2]
    rw [List.append_assoc, Nesting.run_append]
    show Nesting.run ⟨.bracketed, a⟩ _ = _
    rw [Nesting.run_append, hstay]
    rfl
  · obtain ⟨progress, hx⟩ := unmarked_iff.1 h.unmarked
    rw [List.append_assoc]
    exact runMark_enclosed (show '[' ∉ anchorMark by decide) (show ']' ∉ anchorMark by decide) hx

/-- A quoted text is one in quotes, with its quotes doubled. -/
theorem textSymbols_quoted (x : String) :
    textSymbols (quoted x)
      = textSymbols "'" ++ ((doubledQuotes x.toList).map .char ++ textSymbols "'") := by
  have hdoubled : textSymbols (String.ofList (doubledQuotes x.toList))
      = (doubledQuotes x.toList).map .char := by
    rw [textSymbols, String.toList_ofList]
  rw [quoted, textSymbols_append, textSymbols_append, hdoubled, List.append_assoc]

/-- Doubling the quotes of a text neither makes nor hides a mark. -/
theorem runMark_doubledQuotes (progress : Nat) (cs : List Char) :
    runMark progress ((doubledQuotes cs).map .char) = runMark progress (cs.map .char) := by
  induction cs generalizing progress with
  | nil => rfl
  | cons c cs ih =>
    rw [doubledQuotes, List.flatMap_cons, ← doubledQuotes, List.map_append, runMark_append,
      List.map_cons, runMark_cons]
    by_cases hc : c = '\''
    · -- the first quote brings the reader back to the start, and the second finds it there
      subst hc
      have h := readMark_of_notMem (c := '\'') (by decide)
      simp only [if_true, List.map_cons, List.map_nil, runMark_cons, runMark_nil, h,
        Option.bind_some, ih]
    · simp only [if_neg hc, List.map_cons, List.map_nil, runMark_cons, runMark_nil,
        Option.bind_fun_some, ih]

/-- Doubled quotes do not leave the quotes. -/
theorem Nesting.run_doubledQuotes (depth : Nat) (cs : List Char) :
    Nesting.run ⟨.quoted, depth⟩ ((doubledQuotes cs).map .char) = some ⟨.quoted, depth⟩ := by
  induction cs with
  | nil => rfl
  | cons c cs ih =>
    rw [doubledQuotes, List.flatMap_cons, ← doubledQuotes, List.map_append, run_append]
    have hc : Nesting.run ⟨.quoted, depth⟩
        ((if c = '\'' then ['\'', '\''] else [c]).map .char) = some ⟨.quoted, depth⟩ := by
      split
      · rfl
      · rw [List.map_cons, List.map_nil, run_cons, read, char, if_neg (by assumption)]
        rfl
    rw [hc]
    exact ih

/-- A text in quotes fits wherever a value fits. -/
theorem shifts_quoted (h : Unmarked x) : Shifts a a (textSymbols (quoted x)) := by
  rw [textSymbols_quoted]
  constructor
  · rw [Nesting.run_append]
    show Nesting.run ⟨.quoted, a⟩ _ = _
    rw [Nesting.run_append, Nesting.run_doubledQuotes]
    rfl
  · obtain ⟨progress, hx⟩ := unmarked_iff.1 h
    have hquote : '\'' ∉ anchorMark := by decide
    exact runMark_enclosed hquote hquote ((runMark_doubledQuotes 0 x.toList).trans hx)

/-- A bare name fits together with the text behind it, if this cannot go on with a mark. -/
theorem shifts_bare_append (hx : Bare x) (hy : Shifts a b (textSymbols y)) {c : Char}
    {rest : List Char} (hc : y.toList = c :: rest) (hmark : c ∉ anchorMark) :
    Shifts a b (textSymbols (x ++ y)) := by
  -- the name alone need not fit: it can end with the beginning of a mark
  rw [textSymbols_append]
  constructor
  · have hstay : Nesting.run ⟨.plain, a⟩ (textSymbols x) = some ⟨.plain, a⟩ := by
      exact Nesting.run_map_char fun d hd => Nesting.char_of_notMem (hx.undelimited d hd) a
    rw [Nesting.run_append, hstay]
    exact hy.nesting
  · obtain ⟨i, hi⟩ := unmarked_iff.1 hx.unmarked
    have hy := hy.mark
    rw [textSymbols, hc, List.map_cons, runMark_cons, readMark_of_notMem hmark] at hy
    rw [runMark_append, hi, textSymbols, hc, List.map_cons]
    show (readMark i (.char c)).bind _ = _
    rw [readMark_of_notMem hmark]
    exact hy

/-! ## Numbers -/

/-- The characters mean nothing to either reader. -/
def Harmless (cs : List Char) : Prop :=
  ∀ c ∈ cs, c ∉ '<' :: delimiters

instance (cs : List Char) : Decidable (Harmless cs) :=
  inferInstanceAs (Decidable (∀ c ∈ cs, _))

theorem Harmless.append {cs ds : List Char} (hc : Harmless cs) (hd : Harmless ds) :
    Harmless (cs ++ ds) :=
  fun c h => (List.mem_append.1 h).elim (hc c) (hd c)

/-- Harmless characters open and close nothing. -/
theorem shifts_of_harmless (h : Harmless x.toList) : Shifts a a (textSymbols x) := by
  constructor
  · exact Nesting.run_map_char fun c hc =>
      Nesting.char_of_notMem (fun hmem => h c hc (List.mem_cons_of_mem _ hmem)) a
  · rw [textSymbols]
    generalize x.toList = cs at h
    induction cs with
    | nil => rfl
    | cons c cs ih =>
      have hc : c ≠ '<' := fun heq => h c (by simp) (by simp [heq])
      have hfirst : anchorMark[0]? ≠ some c := fun heq => hc (Option.some.inj heq).symm
      rw [List.map_cons, runMark_cons, readMark, if_neg hfirst, if_neg hc]
      exact ih fun d hd => h d (by simp [hd])

/-- Harmless characters may stand bare. -/
theorem Harmless.bare (h : Harmless x.toList) : Bare x :=
  ⟨fun c hc hmem => h c hc (List.mem_cons_of_mem _ hmem),
    not_occursIn_of_shifts (shifts_of_harmless (a := 0) h)⟩

/-- The characters are such as numbers are written with. -/
def Numeric (cs : List Char) : Prop :=
  ∀ c ∈ cs, c.isDigit = true ∨ c ∈ ['-', '.', 'e', 'N', 'a', 'i', 'n', 'f']

instance (cs : List Char) : Decidable (Numeric cs) :=
  inferInstanceAs (Decidable (∀ c ∈ cs, _))

theorem Numeric.append {cs ds : List Char} (hc : Numeric cs) (hd : Numeric ds) :
    Numeric (cs ++ ds) :=
  fun c h => (List.mem_append.1 h).elim (hc c) (hd c)

theorem Numeric.sublist {cs ds : List Char} (hd : Numeric ds) (h : cs ⊆ ds) : Numeric cs :=
  fun c hc => hd c (h hc)

/-- The characters of numbers are harmless. -/
theorem Numeric.harmless {cs : List Char} (h : Numeric cs) : Harmless cs := by
  intro c hc hmem
  have hnumeric := h c hc
  simp only [delimiters, List.mem_cons, List.not_mem_nil, or_false] at hmem
  rcases hmem with rfl | rfl | rfl | rfl | rfl | rfl <;> exact absurd hnumeric (by decide)

theorem harmless_of_isDigit {cs : List Char} (h : ∀ c ∈ cs, c.isDigit = true) : Harmless cs :=
  Numeric.harmless fun c hc => .inl (h c hc)

theorem numeric_toDigits (n : Nat) : Numeric (Nat.toDigits 10 n) :=
  fun _ hc => .inl (Nat.isDigit_of_mem_toDigits (by omega) (by omega) hc)

theorem numeric_toString_nat (n : Nat) : Numeric (toString n).toList := by
  rw [Nat.toString_eq_ofList_toDigits, String.toList_ofList]
  exact numeric_toDigits n

/-- Integers are written with digits and a minus sign. -/
theorem numeric_toString_int (n : Int) : Numeric (toString n).toList := by
  cases n with
  | ofNat n => exact numeric_toString_nat n
  | negSucc n =>
    show Numeric ("-" ++ toString (n + 1)).toList
    rw [String.toList_append]
    exact Numeric.append (by decide) (numeric_toString_nat (n + 1))

theorem harmless_toString_nat (n : Nat) : Harmless (toString n).toList :=
  (numeric_toString_nat n).harmless

theorem harmless_toString_int (n : Int) : Harmless (toString n).toList :=
  (numeric_toString_int n).harmless

/-- Moving the point adds only zeros and the point. -/
theorem numeric_positional {digits : List Char} (h : Numeric digits) (exponent : Int) :
    Numeric (Decimal.positional digits exponent) := by
  have hzeros : ∀ n, Numeric (List.replicate n '0') := by
    intro n c hc
    rw [List.eq_of_mem_replicate hc]
    decide
  rw [Decimal.positional]
  split
  · exact (h.append (hzeros _)).append (by decide)
  · have hpadded := (hzeros ((-exponent).toNat + 1 - digits.length)).append h
    refine Numeric.append (hpadded.sublist (List.take_subset _ _)) ?_
    exact Numeric.append (show Numeric ['.'] by decide)
      (hpadded.sublist (List.drop_subset _ _))

theorem numeric_mantissa {digits : List Char} (h : Numeric digits) :
    Numeric (Decimal.mantissa digits) := by
  rw [Decimal.mantissa.eq_def]
  split
  next first second rest =>
    intro c hc
    rcases List.mem_cons.1 hc with rfl | hc
    · exact h _ (by simp)
    · rcases List.mem_cons.1 hc with rfl | hc
      · decide
      · exact h c (List.mem_cons_of_mem _ hc)
  next => exact h

/-- Every layout of a decimal number has the characters of numbers only. -/
theorem numeric_layout (n : Decimal.Scientific) : Numeric n.layout := by
  rw [Decimal.Scientific.layout]
  have hdigits := numeric_toDigits n.digits
  split
  · exact numeric_positional hdigits n.exponent
  · refine (numeric_mantissa hdigits).append ?_
    exact Numeric.append (show Numeric ['e'] by decide) (numeric_toString_int _)

/-- Floating-point numbers are written with the characters of numbers only. -/
theorem numeric_doubleText (value : Decimal.Double) : Numeric value.text.toList := by
  have hsign : Numeric (if value.negative then "-" else "").toList := by
    split <;> decide
  rw [Decimal.Double.text]
  revert hsign
  generalize (if value.negative then "-" else "") = sign
  intro hsign
  have hpadded (x : String) (hx : Numeric x.toList) : Numeric (sign ++ x).toList := by
    rw [String.toList_append]
    exact hsign.append hx
  split_ifs
  · decide
  · exact hpadded _ (by decide)
  · exact hpadded _ (by decide)
  · refine hpadded _ ?_
    rw [String.toList_ofList]
    exact numeric_layout _

/-- The text of a double, whatever it is, fits wherever a value fits. -/
theorem shifts_doubleText (value : Decimal.Double) : Shifts a a (textSymbols value.text) :=
  shifts_of_harmless (numeric_doubleText value).harmless

/-- Identifiers of classes are numbers. -/
theorem shifts_classId (id : ClassId) : Shifts a a (textSymbols id.text) :=
  shifts_of_harmless (harmless_toString_nat _)

end EntitySql.Sql
