import EntitySql.Proofs.Text.Bytes
import EntitySql.Sql.Quoting

/-!
# Reading quoted texts

A reader of SQL takes two quotes in a row inside of a quoted text for one quote that belongs to the
text, and a quote by itself for the end. At a quote it cannot know which of the two it is before it
has seen what follows. `readText` keeps in mind that there was a quote, so that what it has left
to read is this quote and the rest (`eq_doubled_of_readToQuote`). It reads exactly what `quoted`
writes (`readText_iff_quoted`), character by character as well as byte by byte.
-/

namespace EntitySql.Sql

/-! ## The reader -/

section Reader

variable {α : Type} {quote : α} {value rest cs : List α}

/-- What was read with one more element before it. -/
theorem exists_of_map_cons {read : Option (List α × List α)} {c : α}
    (h : read.map (Prod.map (c :: ·) id) = some (value, rest)) :
    ∃ value', value = c :: value' ∧ read = some (value', rest) := by
  obtain ⟨⟨value', rest'⟩, hread, heq⟩ := Option.map_eq_some_iff.1 h
  obtain ⟨rfl, rfl⟩ := Prod.mk.inj heq
  exact ⟨value', rfl, hread⟩

variable [DecidableEq α]

/-- Reads the rest of a quoted text: what the text still says, and what is behind it. The flag tells
whether a quote has just been read, which ends the text unless another quote follows. -/
def readToQuote (quote : α) : Bool → List α → Option (List α × List α)
  | false, [] => none
  | true, [] => some ([], [])
  | false, c :: cs =>
    if c = quote then readToQuote quote true cs
    else (readToQuote quote false cs).map (Prod.map (c :: ·) id)
  | true, c :: cs =>
    if c = quote then (readToQuote quote false cs).map (Prod.map (c :: ·) id)
    else some ([], c :: cs)

/-- Reads a quoted text: what it says, and what is behind it. -/
def readText (quote : α) : List α → Option (List α × List α)
  | [] => none
  | c :: cs => if c = quote then readToQuote quote false cs else none

/-- Every quote written twice. -/
def doubled (quote : α) (l : List α) : List α :=
  l.flatMap fun c => if c = quote then [quote, quote] else [c]

theorem doubled_cons_quote : doubled quote (quote :: cs) = quote :: quote :: doubled quote cs := by
  simp [doubled]

theorem doubled_cons_of_ne {c : α} (h : c ≠ quote) :
    doubled quote (c :: cs) = c :: doubled quote cs := by
  simp [doubled, h]

/-- Quotes are doubled one by one. -/
theorem doubled_append (l l' : List α) :
    doubled quote (l ++ l') = doubled quote l ++ doubled quote l' :=
  List.flatMap_append

/-- A text without quotes stays as it is. -/
theorem doubled_of_notMem {l : List α} (h : quote ∉ l) : doubled quote l = l := by
  induction l with
  | nil => rfl
  | cons c l ih =>
    have hc : c ≠ quote := (List.ne_of_not_mem_cons h).symm
    rw [doubled_cons_of_ne hc, ih (List.not_mem_of_not_mem_cons h)]

/-- A quote that no other quote follows ends the text. -/
theorem readToQuote_true (h : rest.head? ≠ some quote) :
    readToQuote quote true rest = some ([], rest) := by
  cases rest with
  | nil => rfl
  | cons c cs =>
    have hc : c ≠ quote := by simpa using h
    rw [readToQuote, if_neg hc]

/-- A text with its quotes doubled is read up to the next single quote. -/
theorem readToQuote_doubled (value : List α) (h : rest.head? ≠ some quote) :
    readToQuote quote false (doubled quote value ++ quote :: rest) = some (value, rest) := by
  induction value with
  | nil =>
    show readToQuote quote false (quote :: rest) = some ([], rest)
    rw [readToQuote, if_pos rfl, readToQuote_true h]
  | cons c value ih =>
    by_cases hc : c = quote
    · -- the reader has the first quote in mind when it comes to the second
      subst hc
      rw [doubled_cons_quote, List.cons_append, List.cons_append, readToQuote, if_pos rfl,
        readToQuote, if_pos rfl, ih]
      rfl
    · rw [doubled_cons_of_ne hc, List.cons_append, readToQuote, if_neg hc, ih]
      rfl

/-- The quote that the reader has in mind and the rest make up what the reader gives back, and it
does not stop before a quote. -/
theorem eq_doubled_of_readToQuote {pending : Bool}
    (h : readToQuote quote pending cs = some (value, rest)) :
    (if pending then quote :: cs else cs) = doubled quote value ++ quote :: rest
      ∧ rest.head? ≠ some quote := by
  fun_induction readToQuote quote pending cs generalizing value with
  | case1 => cases h
  | case2 =>
    obtain ⟨rfl, rfl⟩ := Prod.mk.inj (Option.some.inj h)
    exact ⟨rfl, by simp⟩
  | case3 cs ih => exact ih h
  | case4 c cs hc ih =>
    obtain ⟨value, rfl, hread⟩ := exists_of_map_cons h
    obtain ⟨hcs, hrest⟩ := ih hread
    rw [doubled_cons_of_ne hc]
    exact ⟨congrArg (c :: ·) hcs, hrest⟩
  | case5 cs ih =>
    obtain ⟨value, rfl, hread⟩ := exists_of_map_cons h
    obtain ⟨hcs, hrest⟩ := ih hread
    rw [doubled_cons_quote]
    exact ⟨congrArg (quote :: quote :: ·) hcs, hrest⟩
  | case6 c cs hc =>
    obtain ⟨rfl, rfl⟩ := Prod.mk.inj (Option.some.inj h)
    exact ⟨rfl, by simpa using hc⟩

/-- What is read as a text is that text in quotes, and no other one. -/
theorem readText_eq_some_iff : readText quote cs = some (value, rest) ↔
    cs = quote :: (doubled quote value ++ quote :: rest) ∧ rest.head? ≠ some quote := by
  constructor
  · intro h
    cases cs with
    | nil => cases h
    | cons c cs =>
      rw [readText] at h
      split at h
      next hc =>
        subst hc
        exact (eq_doubled_of_readToQuote h).imp_left (congrArg (c :: ·))
      next => cases h
  · rintro ⟨rfl, hrest⟩
    rw [readText, if_pos rfl, readToQuote_doubled value hrest]

end Reader

/-! ## Characters and bytes -/

/-- A quoted text is one in quotes, with its quotes doubled. -/
theorem toList_quoted (text : String) :
    (quoted text).toList = '\'' :: (doubled '\'' text.toList ++ ['\'']) := by
  simp [quoted, doubledQuotes, doubled]

/-- No other character has the byte of a quote in it, so that no other byte is doubled. -/
theorem flatMap_utf8EncodeChar_doubled (cs : List Char) :
    (doubled '\'' cs).flatMap String.utf8EncodeChar
      = doubled '\''.toUInt8 (cs.flatMap String.utf8EncodeChar) := by
  induction cs with
  | nil => rfl
  | cons c cs ih =>
    rw [List.flatMap_cons, doubled_append, ← ih]
    by_cases hc : c = '\''
    · subst hc
      rw [doubled_cons_quote]
      rfl
    · have hquote : '\''.toUInt8 ∉ String.utf8EncodeChar c :=
        fun h => hc (Text.eq_of_toUInt8_mem (by decide) h)
      rw [doubled_cons_of_ne hc, List.flatMap_cons, doubled_of_notMem hquote]

/-- Quoting is the same for bytes, since no other character has the byte of a quote in it. -/
theorem bytes_quoted (text : String) :
    Text.bytes (quoted text)
      = '\''.toUInt8 :: (doubled '\''.toUInt8 (Text.bytes text) ++ ['\''.toUInt8]) := by
  rw [Text.bytes_eq_flatMap, toList_quoted, List.flatMap_cons, List.flatMap_append,
    flatMap_utf8EncodeChar_doubled, ← Text.bytes_eq_flatMap]
  rfl

/-- What a reader takes for a quoted text is the text in quotes, and it stops right behind the last
quote, as long as no other quote follows there. It does not matter whether it reads characters or
bytes. -/
theorem readText_iff_quoted (sql text rest : String) :
    (readText '\'' sql.toList = some (text.toList, rest.toList)
        ↔ sql = quoted text ++ rest ∧ rest.toList.head? ≠ some '\'')
      ∧ (readText '\''.toUInt8 (Text.bytes sql) = some (Text.bytes text, Text.bytes rest)
        ↔ sql = quoted text ++ rest ∧ rest.toList.head? ≠ some '\'') := by
  constructor
  · rw [readText_eq_some_iff, ← String.toList_inj, String.toList_append, toList_quoted]
    simp only [List.cons_append, List.append_assoc, List.nil_append]
  · rw [readText_eq_some_iff, ← Text.bytes_inj, Text.bytes_append, bytes_quoted, ne_eq,
      Text.head?_bytes_iff (by decide)]
    simp only [List.cons_append, List.append_assoc, List.nil_append, ne_eq]

-- five quotes in a row: two of the text, and the one that ends it
example : readText '\'' "'O''Brien''''' AS x".toList = some ("O'Brien''".toList, " AS x".toList) := by
  decide +kernel

end EntitySql.Sql
