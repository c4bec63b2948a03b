import EntitySql.Proofs.Sql.Condition
import EntitySql.Proofs.Sql.Render

/-!
# Looking out for comments

`Lookout` reads a fragment symbol by symbol and stops where a comment begins: at two dashes, or at a
slash and a star, outside of quotes and brackets. It only has to remember the region that it is in
and whether the last character was a dash or a slash.

Symbols that it reads from a place in the open to a place in the open pass (`Passes`). What passes
can be put together. A sign is the one piece of SQL that does not pass by itself: it passes together
with what is behind it, unless that leads with another dash.
-/

namespace EntitySql.Sql

/-! ## The reader -/

/-- The region that the reader is in, and the last character if it can begin a comment. -/
structure Lookout where
  region : Region
  last : Option Char
deriving DecidableEq

namespace Lookout

/-- In the open: outside of quotes and brackets, behind no character that can begin a comment. -/
def start : Lookout :=
  ⟨.plain, none⟩

/-- Reads a character, unless a comment begins with it. -/
def char (s : Lookout) (c : Char) : Option Lookout :=
  if s.region = .plain ∧ (s.last.bind (commentBegun · c)).isSome then none
  else some ⟨s.region.next c, if c = '-' ∨ c = '/' then some c else none⟩

/-- Reads a symbol. An anchor may only stand in the open. -/
def read (s : Lookout) : Symbol → Option Lookout
  | .char c => s.char c
  | .anchor _ => if s = start then some s else none

/-- Reads symbols, one after the other. -/
def run (s : Lookout) (symbols : List Symbol) : Option Lookout :=
  symbols.foldlM read s

@[simp]
theorem run_nil (s : Lookout) : s.run [] = some s := rfl

@[simp]
theorem run_cons (s : Lookout) (symbol : Symbol) (symbols : List Symbol) :
    s.run (symbol :: symbols) = (s.read symbol).bind (·.run symbols) := rfl

/-- Symbols are read in their order. -/
theorem run_append (s : Lookout) (a b : List Symbol) :
    s.run (a ++ b) = (s.run a).bind (·.run b) := by
  rw [run, List.foldlM_append]
  rfl

end Lookout

/-- What the reader has read to the end is free of comments. -/
theorem commentFreeFrom_of_run {s s' : Lookout} {last : Option Char} {cs : List Char}
    (hlast : ∀ c, last.bind (commentBegun · c) = s.last.bind (commentBegun · c))
    (h : s.run (cs.map .char) = some s') : commentFreeFrom s.region last cs = true := by
  induction cs generalizing s last with
  | nil => rfl
  | cons c cs ih =>
    rw [List.map_cons, Lookout.run_cons, Option.bind_eq_some_iff] at h
    obtain ⟨next, hnext, hrest⟩ := h
    simp only [Lookout.read, Lookout.char, Option.ite_none_left_eq_some, Option.some.injEq] at hnext
    obtain ⟨hbegins, rfl⟩ := hnext
    rw [commentFreeFrom, Bool.and_eq_true, hlast]
    refine ⟨by simpa [or_iff_not_imp_left] using hbegins, ih (fun d => ?_) hrest⟩
    -- only a dash or a slash can be the first character of a comment
    dsimp only
    split_ifs with hc
    · rfl
    · rw [not_or] at hc
      simp [commentBegun, hc]

/-! ## Passing -/

/-- The symbols lead from a place in the open to such a place, and no comment begins on the way. -/
def Passes (symbols : List Symbol) : Prop :=
  Lookout.start.run symbols = some .start

instance (symbols : List Symbol) : Decidable (Passes symbols) :=
  inferInstanceAs (Decidable (_ = _))

/-- The first symbol is a character, and no dash. -/
def leadsWell : List Symbol → Bool
  | .char c :: _ => c ≠ '-'
  | .anchor _ :: _ | [] => false

/-- A text that passes holds no comment. -/
theorem isCommentFree_of_passes {text : String} (h : Passes (textSymbols text)) :
    isCommentFree text = true :=
  commentFreeFrom_of_run (s := .start) (fun _ => rfl) h

namespace Passes

variable {a b : List Symbol} {x y : String}

theorem nil : Passes [] := rfl

/-- Texts that pass can be put together: none ends in what could begin a comment. -/
theorem append (ha : Passes a) (hb : Passes b) : Passes (a ++ b) := by
  rw [Passes, Lookout.run_append, ha]
  exact hb

/-- Texts that pass can be put together. -/
theorem text (hx : Passes (textSymbols x)) (hy : Passes (textSymbols y)) :
    Passes (textSymbols (x ++ y)) := by
  rw [textSymbols_append]
  exact hx.append hy

/-- A dash passes together with what is behind it, unless this begins with a dash. -/
theorem dash (h : Passes a) (hleads : leadsWell a = true) : Passes (.char '-' :: a) := by
  cases a with
  | nil => cases hleads
  | cons symbol a =>
    cases symbol with
    | anchor => cases hleads
    | char c =>
      have hc : c ≠ '-' := of_decide_eq_true hleads
      have hread : Lookout.char ⟨.plain, some '-'⟩ c = Lookout.start.char c := by
        simp [Lookout.char, Lookout.start, commentBegun, hc]
      rw [Passes, Lookout.run_cons] at h ⊢
      show Lookout.run ⟨.plain, some '-'⟩ (.char c :: a) = _
      rw [Lookout.run_cons, Lookout.read, hread]
      exact h

end Passes

theorem leadsWell_append {a b : List Symbol} (h : leadsWell a = true) :
    leadsWell (a ++ b) = true := by
  cases a with
  | nil => cases h
  | cons symbol a => cases symbol <;> exact h

end EntitySql.Sql
