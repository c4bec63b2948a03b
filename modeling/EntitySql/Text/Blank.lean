/-!
# Blank text

The characters of the Unicode property `White_Space`, as ranges of code points.
-/

namespace EntitySql.Text

/-- The ranges of code points that are white space. -/
def blankRanges : List (Nat × Nat) :=
  [(0x09, 0x0D), (0x20, 0x20), (0x85, 0x85), (0xA0, 0xA0), (0x1680, 0x1680), (0x2000, 0x200A),
    (0x2028, 0x2029), (0x202F, 0x202F), (0x205F, 0x205F), (0x3000, 0x3000)]

/-- Whether a character is white space. -/
def isBlank (c : Char) : Bool :=
  blankRanges.any fun (first, last) => first ≤ c.toNat && c.toNat ≤ last

/-- Whether a text holds white space only; the empty text does. -/
def isBlankText (text : String) : Bool :=
  text.toList.all isBlank

end EntitySql.Text
