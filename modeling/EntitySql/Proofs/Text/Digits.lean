/-!
# Numbers as texts

The text of a number consists of digits and tells the number. Behind a character that is no digit it
can be told from what stands before.
-/

namespace EntitySql

/-- What is behind the last character that is no digit can be told from what is before it. -/
theorem append_digits_inj {l l' digits digits' : List Char} {c : Char} (hc : c.isDigit = false)
    (hdigits : ∀ d ∈ digits, d.isDigit = true) (hdigits' : ∀ d ∈ digits', d.isDigit = true)
    (h : l ++ c :: digits = l' ++ c :: digits') : l = l' ∧ digits = digits' := by
  have hnotMem : ∀ {ds : List Char}, (∀ d ∈ ds, d.isDigit = true) → c ∉ ds := by
    intro ds hds hmem
    rw [hds c hmem] at hc
    cases hc
  rcases List.append_eq_append_iff.1 h with ⟨a, ha, htail⟩ | ⟨a, ha, htail⟩
  · cases a with
    | nil => exact ⟨by simpa using ha.symm, by simpa using htail⟩
    | cons d a =>
      obtain ⟨-, rfl⟩ := List.cons.inj htail
      exact absurd (by simp) (hnotMem hdigits)
  · cases a with
    | nil => exact ⟨by simpa using ha, by simpa using htail.symm⟩
    | cons d a =>
      obtain ⟨-, rfl⟩ := List.cons.inj htail
      exact absurd (by simp) (hnotMem hdigits')

theorem toList_toString (n : Nat) : (toString n).toList = Nat.toDigits 10 n := by
  rw [Nat.toString_eq_ofList_toDigits, String.toList_ofList]

/-- The digits of a number tell the number. -/
theorem ofDigitChars_toString (n : Nat) : Nat.ofDigitChars 10 (toString n).toList 0 = n := by
  rw [toList_toString, Nat.ofDigitChars_ten_toDigits]

theorem isDigit_of_mem_toString {n : Nat} : ∀ d ∈ (toString n).toList, d.isDigit = true := by
  intro d hd
  rw [toList_toString] at hd
  exact Nat.isDigit_of_mem_toDigits (by omega) (by omega) hd

/-- Numbers with the same digits are the same. -/
theorem eq_of_toString_toList {m n : Nat} (h : (toString m).toList = (toString n).toList) :
    m = n := by
  rw [← ofDigitChars_toString m, h, ofDigitChars_toString]

end EntitySql
