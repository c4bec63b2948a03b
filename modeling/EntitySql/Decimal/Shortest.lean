import EntitySql.Decimal.Rounding

/-!
# Shortest decimals

`Double.shortest` finds, for a positive finite double, the decimal with the fewest digits that still
reads back as this double; of several such decimals it takes the one nearest to the double.

The reals that read back as `m * 2 ^ q` form an interval around it, half a unit to each side (a
quarter below a power of two, where the doubles get closer). It includes its ends exactly when `m`
is even. If any multiple of `10 ^ k` lies in the interval, so does one of the two multiples next to
the double itself, so these two are all that has to be tried for each `k`.
-/

namespace EntitySql.Decimal

/-- The number `digits * 10 ^ exponent`. -/
structure Scientific where
  digits : Nat
  exponent : Int
deriving DecidableEq

/-- The reals that read back as one double, as quotients with a common denominator. -/
structure Interval where
  low : Nat
  middle : Nat
  high : Nat
  den : Nat
  closed : Bool

/-- The interval of a finite double that is not zero. -/
def Double.interval (x : Double) : Interval :=
  let below := if x.significand = Nat.pow 2 52 ∧ 1 < x.exponentField then 1 else 2
  let (unit, den) := ratio 1 2 (x.scale - 2)
  { low := (4 * x.significand - below) * unit
    middle := 4 * x.significand * unit
    high := (4 * x.significand + 2) * unit
    den
    closed := x.significand % 2 = 0 }

/-- Whether `num / den` lies in the interval. -/
def Interval.contains (i : Interval) (num den : Nat) : Bool :=
  if i.closed then i.low * den ≤ num * i.den && num * i.den ≤ i.high * den
  else i.low * den < num * i.den && num * i.den < i.high * den

/-- The power of ten of the leading digit of the middle of the interval. -/
def Interval.leading (i : Interval) : Int :=
  let estimate : Int := (Nat.toDigits 10 i.middle).length - (Nat.toDigits 10 i.den).length
  let (n, d) := ratio 1 10 estimate
  if n * i.den ≤ i.middle * d then estimate else estimate - 1

/-- The multiple of `10 ^ exponent` in the interval that is nearest to its middle, the larger one
if two are equally near. -/
def Interval.onGrid? (i : Interval) (exponent : Int) : Option Scientific :=
  let (n, d) := ratio 1 10 exponent
  let num := i.middle * d
  let den := i.den * n
  let lower := num / den
  let hit (digits : Nat) : Bool := i.contains (digits * n) d
  let lowerNearer := 2 * (num % den) < den
  if hit lower && (lowerNearer || !hit (lower + 1)) then some ⟨lower, exponent⟩
  else if hit (lower + 1) then some ⟨lower + 1, exponent⟩
  else none

/-- Zeros at the end of the digits moved into the exponent, at most `fuel` of them. -/
def Scientific.trimmed (fuel : Nat) (x : Scientific) : Scientific :=
  match fuel with
  | 0 => x
  | fuel + 1 =>
    if x.digits ≠ 0 ∧ x.digits % 10 = 0 then
      Scientific.trimmed fuel ⟨x.digits / 10, x.exponent + 1⟩
    else x

/-- The shortest decimal that reads back as the given double, which is finite and not zero. Its
sign is left aside. Seventeen digits always suffice. -/
def Double.shortest (x : Double) : Scientific :=
  let i := x.interval
  let leading := i.leading
  let found := (List.range 17).findSome? fun (more : Nat) => i.onGrid? (leading - more)
  (found.getD ⟨x.significand, 0⟩).trimmed 17

end EntitySql.Decimal
