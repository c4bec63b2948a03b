import EntitySql.Decimal.Rounding

/-!
# Products and quotients of doubles

The product and the quotient of two finite doubles are the doubles nearest to the exact results,
which are quotients of natural numbers. A result beyond the largest double is infinite.
-/

namespace EntitySql.Decimal.Double

/-- The double nearest to `± num / den`. -/
def ofRatio (negative : Bool) (num den : Nat) : Double :=
  .ofMagnitude negative (if num = 0 then 0 else nearestMagnitude num den)

/-- Numerator and denominator of a finite double without its sign. -/
def toRatio (x : Double) : Nat × Nat :=
  ratio x.significand 2 x.scale

/-- The double nearest to the product of two finite doubles. -/
def mul (x y : Double) : Double :=
  let (a, b) := x.toRatio
  let (c, d) := y.toRatio
  .ofRatio (x.negative != y.negative) (a * c) (b * d)

/-- The double nearest to the quotient of two finite doubles, the second of which is not zero. -/
def div (x y : Double) : Double :=
  let (a, b) := x.toRatio
  let (c, d) := y.toRatio
  .ofRatio (x.negative != y.negative) (a * d) (b * c)

end EntitySql.Decimal.Double
