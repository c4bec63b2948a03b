/-!
# Letter case in names

Names of classes, properties, aliases and functions are compared without regard to the case of the
letters `A` to `Z`. Every other character stands for itself, so `Ö` and `ö` are different letters.
-/

namespace EntitySql.Text

/-- The characters of a text, with the capitals `A` to `Z` replaced by small letters. -/
def folded (text : String) : List Char :=
  text.toList.map Char.toLower

/-- The text with the capitals `A` to `Z` replaced by small letters. -/
def lowerCase (text : String) : String :=
  String.ofList (folded text)

/-- Two names are the same name if they differ at most in the case of ASCII letters. -/
def sameName (a b : String) : Bool :=
  folded a == folded b

/-- Names are the same if they are so in small letters. -/
theorem sameName_iff {a b : String} : sameName a b = true ↔ folded a = folded b := by
  simp [sameName]

theorem sameName_eq_decide (a b : String) : sameName a b = decide (folded a = folded b) := by
  rw [Bool.eq_iff_iff, sameName_iff, decide_eq_true_eq]

theorem sameName_refl (a : String) : sameName a a = true := by
  simp [sameName]

theorem sameName_comm (a b : String) : sameName a b = sameName b a := by
  simp only [sameName, BEq.comm]

/-- What is the same name as one of two same names is so as the other. -/
theorem sameName_congr {a b : String} (h : sameName a b = true) (c : String) :
    sameName a c = sameName b c := by
  rw [sameName, sameName, sameName_iff.1 h]

end EntitySql.Text
