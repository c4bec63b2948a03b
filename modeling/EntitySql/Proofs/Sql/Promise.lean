import EntitySql.Proofs.Comments.Spelling

/-!
# What is promised about texts

SQL is looked at with two concerns: that what is opened is closed, and that no comment begins. Texts
that are in order can be put together with either concern, and so can the names and the quoted texts
that suit it. A `Promise` is one of the concerns, together with a proposition under which names are
known to suit it. What is said about texts in the following is said for any promise.
-/

namespace EntitySql.Sql

/-- What a text is looked at for. -/
inductive Concern where
  /-- Quotes, brackets and parentheses are closed, and there is no mark of an anchor. -/
  | nesting
  /-- No comment begins. -/
  | comments
deriving DecidableEq

/-- A concern, and when names are known to suit it. -/
structure Promise where
  concern : Concern
  given : Prop

namespace Promise

variable {p : Promise} {a b c : Nat} {s t : List Symbol} {x y : String}

/-- Under the promise, the symbols are in order, from a place with `a` open parentheses to one with
`b`. -/
def Admits (p : Promise) (a b : Nat) (symbols : List Symbol) : Prop :=
  p.given →
    match p.concern with
    | .nesting => Shifts a b symbols
    | .comments => Passes symbols

/-- The promise, made without a condition, that parentheses and quotes close. -/
def balanced : Promise :=
  ⟨.nesting, True⟩

/-- Under the promise, the name may stand in brackets. -/
def Bracketable (p : Promise) (x : String) : Prop :=
  p.given →
    match p.concern with
    | .nesting => Sql.Bracketable x
    | .comments => Enclosable x

/-- Under the promise, the name may stand as it is. -/
def Bare (p : Promise) (x : String) : Prop :=
  p.given →
    match p.concern with
    | .nesting => Sql.Bare x
    | .comments => Wordlike x

/-- Under the promise, the text may stand in quotes. -/
def Quotable (p : Promise) (x : String) : Prop :=
  p.given →
    match p.concern with
    | .nesting => Unmarked x
    | .comments => True

/-- Under the promise, a minus sign may stand in front of the symbols. -/
def Leads (p : Promise) (symbols : List Symbol) : Prop :=
  p.given →
    match p.concern with
    | .nesting => True
    | .comments => leadsWell symbols = true

/-! ## Fixed texts -/

/-- A text that is in order with either concern. -/
theorem admits_of_both (h : Shifts a b s ∧ Passes s) : p.Admits a b s := by
  obtain ⟨_ | _, given⟩ := p
  · exact fun _ => h.1
  · exact fun _ => h.2

/-- What may stand in brackets for either concern may do so under any promise. -/
theorem bracketable_of_both (h : Sql.Bracketable x ∧ Enclosable x) : p.Bracketable x := by
  obtain ⟨_ | _, given⟩ := p
  · exact fun _ => h.1
  · exact fun _ => h.2

/-- What has no minus sign in front leads under any promise. -/
theorem leads_of_leadsWell (h : leadsWell s = true) : p.Leads s := by
  obtain ⟨_ | _, given⟩ := p
  · exact fun _ => trivial
  · exact fun _ => h

/-! ## Putting texts together -/

theorem Admits.nil : p.Admits a a [] :=
  admits_of_both ⟨.nil, .nil⟩

/-- Texts in order can be put together. -/
theorem Admits.append (hs : p.Admits a b s) (ht : p.Admits b c t) : p.Admits a c (s ++ t) := by
  obtain ⟨_ | _, given⟩ := p
  · exact fun h => (hs h).append (ht h)
  · exact fun h => (hs h).append (ht h)

/-- Texts in order can be put together. -/
theorem Admits.text (hx : p.Admits a b (textSymbols x)) (hy : p.Admits b c (textSymbols y)) :
    p.Admits a c (textSymbols (x ++ y)) := by
  rw [textSymbols_append]
  exact hx.append hy

/-- What is in order is so inside of further parentheses. -/
theorem Admits.lift (hs : p.Admits a b s) (k : Nat) : p.Admits (a + k) (b + k) s := by
  obtain ⟨_ | _, given⟩ := p
  · exact fun h => (hs h).lift k
  · exact hs

/-- A text that closes what it opens is in order at any depth. -/
theorem Admits.anywhere (hs : p.Admits 0 0 s) : p.Admits a a s := by
  have h := hs.lift a
  rwa [Nat.zero_add] at h

theorem Leads.append (hs : p.Leads s) : p.Leads (s ++ t) := by
  obtain ⟨_ | _, given⟩ := p
  · exact hs
  · exact fun h => leadsWell_append (hs h)

/-- A minus sign goes with what is behind it. -/
theorem Admits.minus (hs : p.Admits 0 0 s) (hleads : p.Leads s) :
    p.Admits 0 0 (textSymbols "-" ++ s) := by
  obtain ⟨_ | _, given⟩ := p
  · exact fun h => Shifts.append (by decide) (hs h)
  · exact fun h => Passes.dash (hs h) (hleads h)

/-- Texts with separators between them are in order if each one is. -/
theorem admits_intercalate {separator : String} (hs : p.Admits a a (textSymbols separator))
    {xs : List String} (h : ∀ x ∈ xs, p.Admits a a (textSymbols x)) :
    p.Admits a a (textSymbols (separator.intercalate xs)) := by
  obtain ⟨_ | _, given⟩ := p
  · exact fun hp => shifts_intercalate (hs hp) fun x hx => h x hx hp
  · exact fun hp => passes_intercalate (hs hp) fun x hx => h x hx hp

/-! ## Names and texts -/

/-- A name in brackets is in order if it may stand there. -/
theorem admits_bracketed (h : p.Bracketable x) : p.Admits a a (textSymbols (bracketed x)) := by
  obtain ⟨_ | _, given⟩ := p
  · exact fun hp => shifts_bracketed (h hp)
  · exact fun hp => passes_bracketed (h hp)

/-- A qualified name is in order if both names may stand in brackets. -/
theorem admits_qualified (hx : p.Bracketable x) (hy : p.Bracketable y) :
    p.Admits a a (textSymbols (qualified x y)) := by
  rw [qualified]
  exact ((admits_bracketed hx).text (admits_of_both ⟨shifts_of_harmless (by decide), by decide⟩)).text
    (admits_bracketed hy)

/-- A text in quotes is in order if it may stand there. -/
theorem admits_quoted (h : p.Quotable x) : p.Admits a a (textSymbols (quoted x)) := by
  obtain ⟨_ | _, given⟩ := p
  · exact fun hp => shifts_quoted (h hp)
  · exact fun _ => passes_quoted x

/-- A name by itself can end with the beginning of a mark, but not together with what is behind
it. -/
theorem admits_bare_append (hx : p.Bare x) (hy : p.Admits a b (textSymbols y)) {c : Char}
    {rest : List Char} (hc : y.toList = c :: rest) (hmark : c ∉ anchorMark) :
    p.Admits a b (textSymbols (x ++ y)) := by
  obtain ⟨_ | _, given⟩ := p
  · exact fun hp => shifts_bare_append (hx hp) (hy hp) hc hmark
  · exact fun hp => (passes_of_wordlike (hx hp)).text (hy hp)

/-- A bare name is no minus sign, and if it is empty, what is behind it leads. -/
theorem leads_bare_append (hx : p.Bare x) (hy : leadsWell (textSymbols y) = true) :
    p.Leads (textSymbols (x ++ y)) := by
  obtain ⟨_ | _, given⟩ := p
  · exact fun _ => trivial
  · exact fun hp => leadsWell_wordlike_append (hx hp) hy

/-- What may stand bare for either concern may do so under any promise. -/
theorem bare_of_both (hx : Harmless x.toList ∧ Wordlike x) : p.Bare x := by
  obtain ⟨_ | _, given⟩ := p
  · exact fun _ => hx.1.bare
  · exact fun _ => hx.2

/-- A name with a number behind it. -/
theorem Bracketable.numbered (h : p.Bracketable x) (n : Nat) :
    p.Bracketable (x ++ "_" ++ toString n) := by
  obtain ⟨_ | _, given⟩ := p
  · have hnumber : ("_" ++ toString n).toList = '_' :: (toString n).toList := by
      rw [String.toList_append, show "_".toList = ['_'] by decide]
      rfl
    have hbare : Sql.Bare ("_" ++ toString n) := by
      refine Harmless.bare ?_
      rw [hnumber]
      exact Harmless.append (show Harmless ['_'] by decide) (harmless_toString_nat n)
    rw [String.append_assoc]
    exact fun hp => (h hp).append hbare.bracketable hnumber (by decide)
  · exact fun hp => ((h hp).append (by decide)).append (enclosable_toString_nat n)

/-! ## Numbers -/

theorem admits_toString_nat (n : Nat) : p.Admits a a (textSymbols (toString n)) :=
  admits_of_both ⟨shifts_of_harmless (harmless_toString_nat n),
    passes_of_wordlike (wordlike_toString_nat n)⟩

/-- Integers are in order. -/
theorem admits_toString_int (n : Int) : p.Admits a a (textSymbols (toString n)) :=
  admits_of_both ⟨shifts_of_harmless (harmless_toString_int n), passes_toString_int n⟩

/-- Floating-point numbers are in order. -/
theorem admits_doubleText (value : Decimal.Double) : p.Admits a a (textSymbols value.text) :=
  admits_of_both ⟨shifts_doubleText value, passes_doubleText value⟩

/-- Identifiers of classes are in order. -/
theorem admits_classId (id : ClassId) : p.Admits a a (textSymbols id.text) :=
  admits_of_both ⟨shifts_classId id, passes_classId id⟩

end Promise

end EntitySql.Sql
