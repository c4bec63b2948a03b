/-!
# Double-precision numbers

A number in the binary interchange format of 64 bits: one sign bit, eleven bits of exponent and 52
bits of fraction. A finite number is `± significand * 2 ^ scale`.
-/

namespace EntitySql.Decimal

/-- A double-precision number, by its 64 bits. -/
structure Double where
  bits : UInt64
deriving DecidableEq, Inhabited

namespace Double

/-- The sign bit. -/
def negative (x : Double) : Bool :=
  Nat.pow 2 63 ≤ x.bits.toNat

/-- The eleven bits of the exponent. -/
def exponentField (x : Double) : Nat :=
  x.bits.toNat / Nat.pow 2 52 % Nat.pow 2 11

/-- The 52 bits of the fraction. -/
def fractionField (x : Double) : Nat :=
  x.bits.toNat % Nat.pow 2 52

/-- Whether the number is neither infinite nor NaN. -/
def isFinite (x : Double) : Bool :=
  x.exponentField ≠ 2047

/-- Whether the bits stand for no number at all. -/
def isNaN (x : Double) : Bool :=
  x.exponentField = 2047 && x.fractionField ≠ 0

/-- The whole number that the power of two is multiplied with. -/
def significand (x : Double) : Nat :=
  if x.exponentField = 0 then x.fractionField else Nat.pow 2 52 + x.fractionField

/-- The exponent of the power of two. -/
def scale (x : Double) : Int :=
  (max x.exponentField 1 : Nat) - 1075

/-- Whether the number is zero or below; NaN is not. -/
def isNonPositive (x : Double) : Bool :=
  !x.isNaN && (x.negative || x.significand = 0)

/-- The number with the given sign and the given lower 63 bits. -/
def ofMagnitude (negative : Bool) (magnitude : Nat) : Double :=
  ⟨UInt64.ofNat (if negative then Nat.pow 2 63 + magnitude else magnitude)⟩

/-- Infinity of either sign. -/
def infinity (negative : Bool) : Double :=
  ofMagnitude negative (2047 * Nat.pow 2 52)

/-- The quiet NaN without payload. -/
def nan : Double :=
  ofMagnitude false (2047 * Nat.pow 2 52 + Nat.pow 2 51)

end Double

end EntitySql.Decimal
