import EntitySql.Proofs.Comments.Scan
import EntitySql.Proofs.Sql.Spelling

/-!
# Texts that begin no comment

A name in brackets passes if it does not close the brackets itself, and a bare word if it holds
nothing that could begin a comment or open quotes or brackets. Texts in quotes always pass, and so
do numbers.
-/

namespace EntitySql.Sql

/-- The name stays inside of brackets. -/
def Enclosable (x : String) : Prop :=
  ∀ c ∈ x.toList, c ≠ ']'

/-- The characters that can begin a comment, or open quotes or brackets. -/
def noisyChars : List Char :=
  ['-', '/', '\'', '[']

/-- The characters neither begin a comment nor open quotes or brackets. -/
def Quiet (cs : List Char) : Prop :=
  ∀ c ∈ cs, c ∉ noisyChars

/-- The name neither begins a comment nor opens quotes or brackets. -/
def Wordlike (x : String) : Prop :=
  Quiet x.toList

instance decidableEnclosable (x : String) : Decidable (Enclosable x) :=
  decidableForallChar x.toList

instance decidableQuiet (cs : List Char) : Decidable (Quiet cs) :=
  decidableForallChar cs

instance decidableWordlike (x : String) : Decidable (Wordlike x) :=
  decidableQuiet x.toList

variable {x y : String} {cs ds : List Char}

theorem Quiet.append (hc : Quiet cs) (hd : Quiet ds) : Quiet (cs ++ ds) :=
  fun c h => (List.mem_append.1 h).elim (hc c) (hd c)

theorem Wordlike.append (hx : Wordlike x) (hy : Wordlike y) : Wordlike (x ++ y) := by
  rw [Wordlike, String.toList_append]
  exact Quiet.append hx hy

theorem Enclosable.append (hx : Enclosable x) (hy : Enclosable y) : Enclosable (x ++ y) := by
  intro c hc
  rw [String.toList_append, List.mem_append] at hc
  exact hc.elim (hx c) (hy c)

/-! ## Words and names -/

/-- Characters that are not noisy begin no comment. -/
theorem Lookout.char_of_notMem {c : Char} (h : c ∉ noisyChars) : start.char c = some start := by
  simp only [noisyChars, List.mem_cons, List.not_mem_nil, or_false, not_or] at h
  simp [char, start, Region.next, h]

/-- Quiet characters begin no comment. -/
theorem passes_of_quiet (h : Quiet cs) : Passes (cs.map .char) := by
  induction cs with
  | nil => rfl
  | cons c cs ih =>
    rw [List.map_cons, Passes, Lookout.run_cons, Lookout.read,
      Lookout.char_of_notMem (h c (List.mem_cons_self ..))]
    exact ih fun d hd => h d (List.mem_cons_of_mem _ hd)

/-- Words begin no comment. -/
theorem passes_of_wordlike (h : Wordlike x) : Passes (textSymbols x) :=
  passes_of_quiet h

/-- Quiet characters lead with no minus sign. -/
theorem leadsWell_of_quiet (h : Quiet cs) (hne : cs ≠ []) : leadsWell (cs.map .char) = true := by
  cases cs with
  | nil => exact absurd rfl hne
  | cons c cs =>
    refine decide_eq_true fun heq => h c (List.mem_cons_self ..) ?_
    rw [heq]
    decide

/-- A word leads well together with a text behind it that does. -/
theorem leadsWell_wordlike_append (h : Wordlike x) (hy : leadsWell (textSymbols y) = true) :
    leadsWell (textSymbols (x ++ y)) = true := by
  rw [textSymbols_append]
  cases hx : x.toList with
  | nil =>
    rw [textSymbols, hx]
    exact hy
  | cons c cs =>
    exact leadsWell_append (leadsWell_of_quiet h (by rw [hx]; exact List.cons_ne_nil _ _))

/-- Nothing can begin a comment inside of quotes or brackets. -/
theorem Lookout.char_of_ne_plain {region : Region} (h : region ≠ .plain) (last : Option Char)
    (c : Char) : Lookout.char ⟨region, last⟩ c
      = some ⟨region.next c, if c = '-' ∨ c = '/' then some c else none⟩ := by
  rw [char, if_neg fun hplain => h hplain.1]

/-- Within brackets, everything but a closing one is passed over. -/
theorem Lookout.exists_run_bracketed (h : ∀ c ∈ cs, c ≠ ']')
    (last : Option Char) :
    ∃ last', Lookout.run ⟨.bracketed, last⟩ (cs.map .char) = some ⟨.bracketed, last'⟩ := by
  induction cs generalizing last with
  | nil => exact ⟨last, rfl⟩
  | cons c cs ih =>
    have hstay : Region.bracketed.next c = .bracketed := if_neg (h c (List.mem_cons_self ..))
    rw [List.map_cons, run_cons, read, char_of_ne_plain (by decide), hstay]
    exact ih (fun d hd => h d (List.mem_cons_of_mem _ hd)) _

/-- A name in brackets passes. -/
theorem passes_bracketed (h : Enclosable x) : Passes (textSymbols (bracketed x)) := by
  obtain ⟨last, hrun⟩ := Lookout.exists_run_bracketed h none
  rw [bracketed, textSymbols_append, textSymbols_append, Passes, List.append_assoc,
    Lookout.run_append]
  show Lookout.run ⟨.bracketed, none⟩ (textSymbols x ++ _) = _
  rw [Lookout.run_append, textSymbols, hrun]
  show (Lookout.char ⟨.bracketed, last⟩ ']').bind _ = _
  rw [Lookout.char_of_ne_plain (by decide)]
  rfl

/-- A name in brackets leads with the bracket. -/
theorem leadsWell_bracketed : leadsWell (textSymbols (bracketed x)) = true := by
  rw [bracketed, textSymbols_append, textSymbols_append]
  rfl

theorem leadsWell_qualified : leadsWell (textSymbols (qualified x y)) = true := by
  rw [qualified, textSymbols_append, textSymbols_append]
  exact leadsWell_append (leadsWell_append leadsWell_bracketed)

/-- Within quotes, doubled ones are passed over. -/
theorem Lookout.exists_run_doubledQuotes (cs : List Char) (last : Option Char) :
    ∃ last', Lookout.run ⟨.quoted, last⟩ ((doubledQuotes cs).map .char)
      = some ⟨.quoted, last'⟩ := by
  induction cs generalizing last with
  | nil => exact ⟨last, rfl⟩
  | cons c cs ih =>
    rw [doubledQuotes, List.flatMap_cons, ← doubledQuotes, List.map_append, run_append]
    by_cases hc : c = '\''
    · -- the first quote closes, and the second one opens again
      subst hc
      exact ih none
    · have hstay : Region.quoted.next c = .quoted := if_neg hc
      rw [if_neg hc, List.map_cons, run_cons, read, char_of_ne_plain (by decide), hstay]
      exact ih _

/-- A text in quotes passes, whatever it is. -/
theorem passes_quoted (x : String) : Passes (textSymbols (quoted x)) := by
  obtain ⟨last, hrun⟩ := Lookout.exists_run_doubledQuotes x.toList none
  rw [textSymbols_quoted, Passes, Lookout.run_append]
  show Lookout.run ⟨.quoted, none⟩ (_ ++ _) = _
  rw [Lookout.run_append, hrun]
  show (Lookout.char ⟨.quoted, last⟩ '\'').bind _ = _
  rw [Lookout.char_of_ne_plain (by decide)]
  rfl

/-- A text in quotes leads with the quote. -/
theorem leadsWell_quoted : leadsWell (textSymbols (quoted x)) = true := by
  rw [quoted, textSymbols_append, textSymbols_append]
  rfl

/-- Texts with separators between them begin no comment if none of them does. -/
theorem passes_intercalate {separator : String} (hs : Passes (textSymbols separator))
    {xs : List String} (h : ∀ x ∈ xs, Passes (textSymbols x)) :
    Passes (textSymbols (separator.intercalate xs)) := by
  induction xs with
  | nil => exact .nil
  | cons x xs ih =>
    have hx := h x (List.mem_cons_self ..)
    cases xs with
    | nil =>
      rw [String.intercalate_singleton]
      exact hx
    | cons y ys =>
      rw [String.intercalate_cons_cons]
      exact (hx.text hs).text (ih fun z hz => h z (List.mem_cons_of_mem _ hz))

/-! ## Numbers -/

theorem quiet_toDigits (n : Nat) : Quiet (Nat.toDigits 10 n) := by
  intro c hc hmem
  have hdigit := Nat.isDigit_of_mem_toDigits (by omega) (by omega) hc
  simp only [noisyChars, List.mem_cons, List.not_mem_nil, or_false] at hmem
  rcases hmem with rfl | rfl | rfl | rfl <;> exact absurd hdigit (by decide)

theorem enclosable_toString_nat (n : Nat) : Enclosable (toString n) := by
  rw [Enclosable, Nat.toString_eq_ofList_toDigits, String.toList_ofList]
  rintro c hc rfl
  exact absurd (Nat.isDigit_of_mem_toDigits (by omega) (by omega) hc) (by decide)

theorem wordlike_toString_nat (n : Nat) : Wordlike (toString n) := by
  rw [Wordlike, Nat.toString_eq_ofList_toDigits, String.toList_ofList]
  exact quiet_toDigits n

theorem leadsWell_toString_nat (n : Nat) : leadsWell (textSymbols (toString n)) = true := by
  rw [textSymbols, Nat.toString_eq_ofList_toDigits, String.toList_ofList]
  exact leadsWell_of_quiet (quiet_toDigits n) (Nat.toDigits_ne_nil)

/-- An integer begins no comment: it has one minus sign at most. -/
theorem passes_toString_int (n : Int) : Passes (textSymbols (toString n)) := by
  cases n with
  | ofNat n => exact passes_of_wordlike (wordlike_toString_nat n)
  | negSucc n =>
    show Passes (textSymbols ("-" ++ toString (n + 1)))
    rw [textSymbols_append]
    exact .dash (passes_of_wordlike (wordlike_toString_nat _)) (leadsWell_toString_nat _)

/-- An integer that is not negative leads with a digit. -/
theorem leadsWell_toString_int {n : Int} (h : 0 ≤ n) :
    leadsWell (textSymbols (toString n)) = true := by
  obtain ⟨k, rfl⟩ := Int.eq_ofNat_of_zero_le h
  exact leadsWell_toString_nat k

/-- Moving the point adds only zeros and the point. -/
theorem quiet_positional (h : Quiet cs) (exponent : Int) :
    Quiet (Decimal.positional cs exponent) := by
  have hzeros (n : Nat) : Quiet (List.replicate n '0') := by
    intro c hc
    rw [List.eq_of_mem_replicate hc]
    decide
  rw [Decimal.positional]
  split
  · exact (h.append (hzeros _)).append (by decide)
  · have hpadded := (hzeros ((-exponent).toNat + 1 - cs.length)).append h
    refine Quiet.append (fun c hc => hpadded c (List.mem_of_mem_take hc)) ?_
    exact Quiet.append (show Quiet ['.'] by decide) fun c hc => hpadded c (List.mem_of_mem_drop hc)

theorem quiet_mantissa (h : Quiet cs) : Quiet (Decimal.mantissa cs) := by
  rw [Decimal.mantissa.eq_def]
  split
  next first second rest =>
    obtain ⟨hfirst, hrest⟩ := List.forall_mem_cons.1 h
    exact List.forall_mem_cons.2 ⟨hfirst, List.forall_mem_cons.2 ⟨by decide, hrest⟩⟩
  next => exact h

/-- The layout of a decimal passes, and it does not begin with a dash. -/
theorem passes_layout (n : Decimal.Scientific) :
    Passes (n.layout.map .char) ∧ leadsWell (n.layout.map .char) = true := by
  rw [Decimal.Scientific.layout]
  have hdigits : Quiet (Decimal.digitsOf n.digits) := quiet_toDigits n.digits
  split
  · have hquiet := quiet_positional hdigits n.exponent
    refine ⟨passes_of_quiet hquiet, leadsWell_of_quiet hquiet ?_⟩
    rw [Decimal.positional]
    split <;> simp
  · have hquiet := (quiet_mantissa hdigits).append (show Quiet ['e'] by decide)
    rw [List.append_cons, List.map_append]
    exact ⟨(passes_of_quiet hquiet).append (passes_toString_int _),
      leadsWell_append (leadsWell_of_quiet hquiet (by simp))⟩

/-- The text of a double is a text that passes and does not begin with a dash, behind a dash if the
double is negative. -/
theorem exists_doubleText_eq (value : Decimal.Double) :
    ∃ sign body, value.text = sign ++ body
      ∧ (sign = "" ∨ sign = "-" ∧ value.negative = true)
      ∧ Passes (textSymbols body) ∧ leadsWell (textSymbols body) = true := by
  have hsign : (if value.negative then "-" else "") = ""
      ∨ (if value.negative then "-" else "") = "-" ∧ value.negative = true := by
    cases value.negative with
    | false => exact .inl rfl
    | true => exact .inr ⟨rfl, rfl⟩
  rw [Decimal.Double.text]
  revert hsign
  generalize (if value.negative then "-" else "") = sign
  intro hsign
  split_ifs
  · exact ⟨"", "NaN", by decide, .inl rfl, by decide, by decide⟩
  · exact ⟨sign, "inf", rfl, hsign, by decide, by decide⟩
  · exact ⟨sign, "0.0", rfl, hsign, by decide, by decide⟩
  · refine ⟨sign, _, rfl, hsign, ?_⟩
    rw [textSymbols, String.toList_ofList]
    exact passes_layout _

/-- The text of a double passes. -/
theorem passes_doubleText (value : Decimal.Double) : Passes (textSymbols value.text) := by
  obtain ⟨sign, body, htext, hsign, hpasses, hleads⟩ := exists_doubleText_eq value
  rw [htext, textSymbols_append]
  rcases hsign with rfl | ⟨rfl, -⟩
  · exact hpasses
  · exact hpasses.dash hleads

/-- A number that is not negative leads with a digit. -/
theorem leadsWell_doubleText {value : Decimal.Double} (h : value.negative = false) :
    leadsWell (textSymbols value.text) = true := by
  obtain ⟨sign, body, htext, hsign, -, hleads⟩ := exists_doubleText_eq value
  rw [htext, textSymbols_append]
  rcases hsign with rfl | ⟨-, hnegative⟩
  · exact hleads
  · rw [h] at hnegative
    cases hnegative

/-- Identifiers of classes begin no comment. -/
theorem passes_classId (id : ClassId) : Passes (textSymbols id.text) :=
  passes_of_wordlike (wordlike_toString_nat _)

theorem leadsWell_classId (id : ClassId) : leadsWell (textSymbols id.text) = true :=
  leadsWell_toString_nat _

end EntitySql.Sql
