import EntitySql.Proofs.Sql.Symbol
import EntitySql.Sql.WellFormed
import Mathlib.Tactic.IntervalCases

/-!
# Reading fragments symbol by symbol

Whether a text is well formed is decided by two readers that go over it once. `Nesting` is the
region that the reader is in and the number of open parentheses. The other reader knows how much of
the mark `<anchor` it has just seen, and stops when the mark is complete. Both read the symbols of a
fragment too: an anchor changes nothing, but it may only stand where a text could be put in its
place, outside of quotes and brackets and not inside a mark.

`Shifts a b symbols` says that the symbols take both readers from a place with `a` open parentheses
to one with `b`. Such pieces can be put together (`Shifts.append`) inside of further parentheses
(`Shifts.lift`), and a text that shifts nothing passes as well formed
(`closesFrom_of_shifts`, `not_occursIn_of_shifts`).
-/

namespace EntitySql.Sql

/-! ## Regions and parentheses -/

/-- The region that the reader is in, and the number of open parentheses. -/
structure Nesting where
  region : Region
  depth : Nat
deriving DecidableEq

namespace Nesting

/-- Reads a character. -/
def char : Nesting → Char → Option Nesting
  | ⟨.plain, depth⟩, c =>
    if c = '\'' then some ⟨.quoted, depth⟩
    else if c = '[' then some ⟨.bracketed, depth⟩
    else if c = ']' then none
    else if c = '(' then some ⟨.plain, depth + 1⟩
    else if c = ')' then if 0 < depth then some ⟨.plain, depth - 1⟩ else none
    else some ⟨.plain, depth⟩
  | ⟨.quoted, depth⟩, c => some ⟨if c = '\'' then .plain else .quoted, depth⟩
  | ⟨.bracketed, depth⟩, c =>
    if c = '[' then none else some ⟨if c = ']' then .plain else .bracketed, depth⟩

/-- Reads a symbol. An anchor may only stand outside of quotes and brackets. -/
def read (s : Nesting) : Symbol → Option Nesting
  | .char c => s.char c
  | .anchor _ => if s.region = .plain then some s else none

/-- Reads symbols, one after the other. -/
def run (s : Nesting) (symbols : List Symbol) : Option Nesting :=
  symbols.foldlM read s

@[simp]
theorem run_nil (s : Nesting) : s.run [] = some s := rfl

@[simp]
theorem run_cons (s : Nesting) (symbol : Symbol) (symbols : List Symbol) :
    s.run (symbol :: symbols) = (s.read symbol).bind (·.run symbols) := rfl

/-- Symbols are read in their order. -/
theorem run_append (s : Nesting) (a b : List Symbol) :
    s.run (a ++ b) = (s.run a).bind (·.run b) := by
  rw [run, List.foldlM_append]
  rfl

/-- One more pair of parentheses around does not disturb the reader. -/
theorem read_lift {s t : Nesting} {symbol : Symbol} (h : s.read symbol = some t) (k : Nat) :
    Nesting.read ⟨s.region, s.depth + k⟩ symbol = some ⟨t.region, t.depth + k⟩ := by
  obtain ⟨region, depth⟩ := s
  obtain ⟨region', depth'⟩ := t
  cases symbol with
  | char c => cases region <;> grind [read, char]
  | anchor id => grind [read]

/-- What goes well at some depth goes well deeper. -/
theorem run_lift {s t : Nesting} {symbols : List Symbol} (h : s.run symbols = some t) (k : Nat) :
    Nesting.run ⟨s.region, s.depth + k⟩ symbols = some ⟨t.region, t.depth + k⟩ := by
  induction symbols generalizing s with
  | nil =>
    obtain rfl : s = t := by simpa using h
    rfl
  | cons symbol symbols ih =>
    rw [run_cons, Option.bind_eq_some_iff] at h
    obtain ⟨u, hu, ht⟩ := h
    rw [run_cons, read_lift hu k]
    exact ih ht

end Nesting

/-- A text closes exactly if the reader of regions ends in the open with no parenthesis left. -/
theorem closesFrom_iff_run (region : Region) (depth : Nat) (cs : List Char) :
    closesFrom region depth cs = true
      ↔ Nesting.run ⟨region, depth⟩ (cs.map .char) = some ⟨.plain, 0⟩ := by
  induction cs generalizing region depth with
  | nil => simp [closesFrom]
  | cons c cs ih =>
    rw [List.map_cons, Nesting.run_cons, Nesting.read]
    cases region with
    | plain =>
      rw [closesFrom, Nesting.char]
      split_ifs <;> simp_all
    | quoted =>
      rw [closesFrom, ih, Nesting.char]
      rfl
    | bracketed =>
      rw [closesFrom, Nesting.char]
      split_ifs <;> simp_all

/-! ## The mark of an anchor -/

/-- The beginning of the mark by which an anchor is shown. -/
def anchorMark : List Char :=
  "<anchor".toList

/-- Reads a symbol after so many characters of the mark; fails if it completes the mark, or is an
anchor in the middle of one. -/
def readMark (progress : Nat) : Symbol → Option Nat
  | .char c =>
    if anchorMark[progress]? = some c then
      if progress = 6 then none else some (progress + 1)
    else some (if c = '<' then 1 else 0)
  | .anchor _ => if progress = 0 then some 0 else none

/-- Reads symbols, one after the other. -/
def runMark (progress : Nat) (symbols : List Symbol) : Option Nat :=
  symbols.foldlM readMark progress

@[simp]
theorem runMark_nil (progress : Nat) : runMark progress [] = some progress := rfl

@[simp]
theorem runMark_cons (progress : Nat) (symbol : Symbol) (symbols : List Symbol) :
    runMark progress (symbol :: symbols)
      = (readMark progress symbol).bind (runMark · symbols) := rfl

/-- Marks of anchors are looked for in the order of symbols. -/
theorem runMark_append (progress : Nat) (a b : List Symbol) :
    runMark progress (a ++ b) = (runMark progress a).bind (runMark · b) := by
  rw [runMark, List.foldlM_append]
  rfl

theorem anchorMark_eq : anchorMark = ['<', 'a', 'n', 'c', 'h', 'o', 'r'] := by decide

/-- A character that does not continue the mark starts the search anew. -/
theorem occursIn_anchorMark_skip {progress : Nat} (hp : progress < 7) {c : Char}
    (hc : anchorMark[progress]? ≠ some c) (cs : List Char) :
    occursIn anchorMark (anchorMark.take progress ++ c :: cs) = occursIn anchorMark (c :: cs) := by
  rw [anchorMark_eq] at hc ⊢
  interval_cases progress <;> simp_all [occursIn, List.isPrefixOf]

/-- The reader of the mark fails exactly on the texts that hold the mark. -/
theorem runMark_isSome {progress : Nat} (hp : progress < 7) (cs : List Char) :
    (runMark progress (cs.map .char)).isSome
      = !occursIn anchorMark (anchorMark.take progress ++ cs) := by
  -- what the reader has seen of the mark counts as text in front of what it still has to read
  induction cs generalizing progress with
  | nil => interval_cases progress <;> decide
  | cons c cs ih =>
    rw [List.map_cons, runMark_cons, readMark]
    by_cases hc : anchorMark[progress]? = some c
    · -- the character goes on with the mark, and may complete it
      rw [if_pos hc]
      have htake : anchorMark.take progress ++ c :: cs = anchorMark.take (progress + 1) ++ cs := by
        rw [List.take_add_one, hc, List.append_assoc]
        rfl
      by_cases h6 : progress = 6
      · subst h6
        rw [htake, if_pos rfl, anchorMark_eq]
        simp [occursIn, List.isPrefixOf]
      · rw [if_neg h6, htake]
        exact ih (by omega)
    · -- the mark breaks off here; only `<` can be the start of another one
      rw [if_neg hc, occursIn_anchorMark_skip hp hc]
      by_cases hlt : c = '<'
      · subst hlt
        exact ih (show 1 < 7 by omega)
      · rw [if_neg hlt]
        have hskip : occursIn anchorMark (c :: cs) = occursIn anchorMark cs := by
          simp [anchorMark_eq, occursIn, List.isPrefixOf, Ne.symm hlt]
        rw [hskip]
        exact ih (by omega)

/-- A character outside of the mark brings the reader of the mark back to its start. -/
theorem readMark_of_notMem {c : Char} (hc : c ∉ anchorMark) (progress : Nat) :
    readMark progress (.char c) = some 0 := by
  have hnot : anchorMark[progress]? ≠ some c := fun h => hc (List.mem_of_getElem? h)
  have hlt : c ≠ '<' := fun h => hc (by rw [h]; decide)
  rw [readMark, if_neg hnot, if_neg hlt]

/-! ## Pieces that fit together -/

/-- The symbols lead from a place outside of quotes, brackets and marks with `a` open parentheses to
such a place with `b` open parentheses. -/
structure Shifts (a b : Nat) (symbols : List Symbol) : Prop where
  nesting : Nesting.run ⟨.plain, a⟩ symbols = some ⟨.plain, b⟩
  mark : runMark 0 symbols = some 0

instance (a b : Nat) (symbols : List Symbol) : Decidable (Shifts a b symbols) :=
  decidable_of_iff
    (Nesting.run ⟨.plain, a⟩ symbols = some ⟨.plain, b⟩ ∧ runMark 0 symbols = some 0)
    ⟨fun h => ⟨h.1, h.2⟩, fun h => ⟨h.1, h.2⟩⟩

namespace Shifts

variable {a b c : Nat} {x y : List Symbol}

theorem nil : Shifts a a [] := ⟨rfl, rfl⟩

theorem anchor (id : AnchorId) : Shifts a a [.anchor id] := ⟨rfl, rfl⟩

/-- Texts can be put together where the depth of the one is that of the other. -/
theorem append (hx : Shifts a b x) (hy : Shifts b c y) : Shifts a c (x ++ y) := by
  constructor
  · rw [Nesting.run_append, hx.nesting]
    exact hy.nesting
  · rw [runMark_append, hx.mark]
    exact hy.mark

/-- Texts can be put together where the depth of the one is that of the other. -/
theorem text {u v : String} (hu : Shifts a b (textSymbols u)) (hv : Shifts b c (textSymbols v)) :
    Shifts a c (textSymbols (u ++ v)) := by
  rw [textSymbols_append]
  exact hu.append hv

/-- A piece fits in the same way inside of more parentheses. -/
theorem lift (hx : Shifts a b x) (k : Nat) : Shifts (a + k) (b + k) x :=
  ⟨Nesting.run_lift hx.nesting k, hx.mark⟩

end Shifts

/-- Symbols that shift nothing stand for text whose quotes, brackets and parentheses close. -/
theorem closesFrom_of_shifts {text : String} (h : Shifts 0 0 (textSymbols text)) :
    closesFrom .plain 0 text.toList = true :=
  (closesFrom_iff_run .plain 0 text.toList).2 h.nesting

/-- Symbols that shift nothing stand for text without the mark of an anchor. -/
theorem not_occursIn_of_shifts {a b : Nat} {text : String} (h : Shifts a b (textSymbols text)) :
    occursIn anchorMark text.toList = false := by
  have hsome := runMark_isSome (show 0 < 7 by omega) text.toList
  rw [← textSymbols, h.mark] at hsome
  simpa using hsome.symm

end EntitySql.Sql
