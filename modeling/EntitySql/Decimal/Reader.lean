import EntitySql.Decimal.Rounding
import EntitySql.Text.Ascii

/-!
# Reading decimals

Two grammars of numbers share their parts: `Numeral.ofText?` splits a text into sign, whole digits,
fraction digits and exponent, and each reader says which of the parts it wants.
-/

namespace EntitySql.Decimal

/-- The parts of a written number. A part that is missing is `none`. -/
structure Numeral where
  negative : Bool
  signed : Bool
  whole : List Char
  fraction : Option (List Char)
  exponent : Option (Bool × List Char)

/-- A leading sign and the characters after it. -/
def splitSign : List Char → Option Bool × List Char
  | '-' :: rest => (some true, rest)
  | '+' :: rest => (some false, rest)
  | chars => (none, chars)

/-- The value of a list of decimal digits. -/
def digitsValue (digits : List Char) : Nat :=
  digits.foldl (fun value c => 10 * value + (c.toNat - '0'.toNat)) 0

/-- An exponent: the mark `e`, an optional sign, at least one digit, and nothing else. -/
def exponent? : List Char → Option (Option (Bool × List Char))
  | [] => some none
  | mark :: rest =>
    let (sign, digits) := splitSign rest
    if (mark = 'e' || mark = 'E') && !digits.isEmpty && digits.all Char.isDigit then
      some (some (sign.getD false, digits))
    else none

/-- Splits a text into the parts of a number. Neither side of the point needs to have digits. -/
def Numeral.ofText? (chars : List Char) : Option Numeral :=
  let (sign, rest) := splitSign chars
  let whole := rest.takeWhile Char.isDigit
  let (fraction, rest) :=
    match rest.dropWhile Char.isDigit with
    | '.' :: rest => (some (rest.takeWhile Char.isDigit), rest.dropWhile Char.isDigit)
    | rest => (none, rest)
  (exponent? rest).map fun exponent =>
    { negative := sign = some true, signed := sign.isSome, whole, fraction, exponent }

/-- The power of ten that the exponent asks for. -/
def Numeral.power (n : Numeral) : Int :=
  match n.exponent with
  | none => 0
  | some (true, digits) => -digitsValue digits
  | some (false, digits) => digitsValue digits

/-- The double nearest to the number. -/
def Numeral.toDouble (n : Numeral) : Double :=
  let fraction := n.fraction.getD []
  .ofDecimal n.negative (digitsValue (n.whole ++ fraction)) (n.power - fraction.length)

/-- Reads a double: a number with digits on at least one side of the point, or one of the words
`inf`, `infinity` and `nan` in any case, each with an optional sign. -/
def Double.ofText? (text : String) : Option Double :=
  let (sign, rest) := splitSign (Text.folded text)
  let negative := sign = some true
  if rest = "inf".toList ∨ rest = "infinity".toList then some (.infinity negative)
  else if rest = "nan".toList then some .nan
  else do
    let n ← Numeral.ofText? text.toList
    guard (!n.whole.isEmpty || !(n.fraction.getD []).isEmpty)
    return n.toDouble

end EntitySql.Decimal
