import EntitySql.Decimal.Double

/-!
# Nearest doubles

`Double.ofDecimal` gives the double nearest to `± digits * 10 ^ exponent`; of two that are equally
near it takes the one with the even significand. A value beyond the largest double is infinite.
All arithmetic is exact, on quotients of natural numbers.
-/

namespace EntitySql.Decimal

/-- The whole number nearest to `num / den`; a half goes to the even neighbour. -/
def roundHalfEven (num den : Nat) : Nat :=
  let quotient := num / den
  let twice := 2 * (num % den)
  if twice < den then quotient
  else if den < twice then quotient + 1
  else quotient + quotient % 2

/-- Numerator and denominator of `digits * base ^ exponent`. -/
def ratio (digits base : Nat) (exponent : Int) : Nat × Nat :=
  (digits * Nat.pow base exponent.toNat, Nat.pow base (-exponent).toNat)

/-- The scale at which the quotient of two positive numbers has a significand of 53 bits, or the
smallest scale of all. -/
def binaryScale (num den : Nat) : Int :=
  let least : Int := (num.log2 : Int) - den.log2 - 53
  let (n, d) := ratio num 2 (-least)
  max (if n < d * den * Nat.pow 2 53 then least else least + 1) (-1074)

/-- The lower 63 bits of the double nearest to the quotient of two positive numbers. -/
def nearestMagnitude (num den : Nat) : Nat :=
  let scale := binaryScale num den
  let (n, d) := ratio num 2 (-scale)
  let rounded := roundHalfEven n (d * den)
  min (rounded + Nat.pow 2 52 * (scale + 1074).toNat) (2047 * Nat.pow 2 52)

/-- The double nearest to `± digits * 10 ^ exponent`. The exponent is first brought into the range
in which it matters, so that a text with a huge exponent costs no more than any other. -/
def Double.ofDecimal (negative : Bool) (digits : Nat) (exponent : Int) : Double :=
  let size : Int := (Nat.toDigits 10 digits).length
  if digits = 0 ∨ size + exponent < -330 then .ofMagnitude negative 0
  else if 310 < size + exponent then .infinity negative
  else
    let (num, den) := ratio digits 10 exponent
    .ofMagnitude negative (nearestMagnitude num den)

/-- The double nearest to a whole number. -/
def Double.ofInt (n : Int) : Double :=
  .ofDecimal (n < 0) n.natAbs 0

end EntitySql.Decimal
