import EntitySql.Decimal.Shortest

/-!
# The text of a double

A double is written with the digits of its shortest decimal. Between `10 ^ -4` and `10 ^ 16` it
stands in positional notation with at least one digit behind the point; outside this range, zero
apart, a bare exponent follows the digits.
-/

namespace EntitySql.Decimal

/-- The decimal digits of a natural number. -/
def digitsOf (n : Nat) : List Char :=
  Nat.toDigits 10 n

/-- The digits with a point behind the first, and no point if there is only one. -/
def mantissa : List Char → List Char
  | first :: second :: rest => first :: '.' :: second :: rest
  | digits => digits

/-- `digits * 10 ^ exponent` in positional notation, with at least one digit on either side of the
point. -/
def positional (digits : List Char) (exponent : Int) : List Char :=
  if 0 ≤ exponent then digits ++ List.replicate exponent.toNat '0' ++ ['.', '0']
  else
    let places := (-exponent).toNat
    let padded := List.replicate (places + 1 - digits.length) '0' ++ digits
    padded.take (padded.length - places) ++ '.' :: padded.drop (padded.length - places)

/-- A decimal in the notation that its size asks for. -/
def Scientific.layout (x : Scientific) : List Char :=
  let digits := digitsOf x.digits
  let leading : Int := x.exponent + digits.length - 1
  if -4 ≤ leading ∧ leading < 16 then positional digits x.exponent
  else mantissa digits ++ 'e' :: (toString leading).toList

/-- The text of a double. -/
def Double.text (x : Double) : String :=
  let sign := if x.negative then "-" else ""
  if x.isNaN then "NaN"
  else if !x.isFinite then sign ++ "inf"
  else if x.significand = 0 then sign ++ "0.0"
  else sign ++ String.ofList x.shortest.layout

end EntitySql.Decimal
