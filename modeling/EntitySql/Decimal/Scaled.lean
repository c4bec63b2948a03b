import EntitySql.Decimal.Arithmetic
import EntitySql.Decimal.Reader

/-!
# Numbers by significand and power of ten

`Numeral.scaled` reads a number in double precision from the start: its leading digits make a
significand of 64 bits, which is then multiplied with or divided by a power of ten. The significand,
the power and the result are each rounded, so the result is close to the number, but where
`Numeral.toDouble` gives the nearest double this may be a neighbour of it.
-/

namespace EntitySql.Decimal

/-- The greatest power of ten among the doubles. -/
def greatestPower : Nat :=
  308

namespace Double

/-- The double nearest to `10 ^ power`. -/
def powerOfTen (power : Nat) : Double :=
  .ofDecimal false 1 power

/-- Multiplies a finite double with `10 ^ power`. -/
def mulPower (x : Double) (power : Nat) : Double :=
  if power ≤ greatestPower then x.mul (powerOfTen power)
  else if x.significand = 0 then x
  else .infinity x.negative

/-- Divides a finite double by `10 ^ power`. What exceeds the greatest power is divided off step by
step, until nothing is left of the number. -/
def divPower (x : Double) (power : Nat) : Double :=
  if power ≤ greatestPower then x.div (powerOfTen power)
  else if x.significand = 0 then x
  else divPower (x.div (powerOfTen greatestPower)) (power - greatestPower)
termination_by power
decreasing_by simp only [greatestPower] at *; omega

/-- Multiplies a finite double with `10 ^ power`, or divides it if the power is negative. -/
def scaleByTen (x : Double) (power : Int) : Double :=
  if 0 ≤ power then x.mulPower power.toNat else x.divPower (-power).toNat

end Double

/-- Puts digits behind a significand as long as it fits in 64 bits. The second part of the result
are the digits from the first that does not fit. -/
def extendSignificand (significand : Nat) : List Char → Nat × List Char
  | [] => (significand, [])
  | c :: rest =>
    let extended := 10 * significand + (c.toNat - '0'.toNat)
    if extended < UInt64.size then extendSignificand extended rest else (significand, c :: rest)

/-- Reads the number by its significand and one power of ten. Whole digits that do not fit in the
significand raise the power, fraction digits that fit lower it, and those that do not fit are
dropped. -/
def Numeral.scaled (n : Numeral) : Double :=
  let fraction := n.fraction.getD []
  let (whole, wholeRest) := extendSignificand 0 n.whole
  let (significand, fractionRest) := extendSignificand whole fraction
  let power := n.power + wholeRest.length + fractionRest.length - fraction.length
  (Double.ofDecimal n.negative significand 0).scaleByTen power

end EntitySql.Decimal
