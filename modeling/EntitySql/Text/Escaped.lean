import EntitySql.Text.Printing

/-!
# Texts shown in messages

A text inside a message stands in double quotes. Quotes and backslashes get a backslash, line ends,
tabs and the null character their letter, and any other character without a mark of its own its
code point in braces.
-/

namespace EntitySql.Text

/-- One character as it stands between the quotes. -/
def escapedChar (c : Char) : String :=
  if c = '"' then "\\\""
  else if c = '\\' then "\\\\"
  else if c = '\n' then "\\n"
  else if c = '\r' then "\\r"
  else if c = '\t' then "\\t"
  else if c.toNat = 0 then "\\0"
  else if isPrinting c then c.toString
  else "\\u\x7b" ++ String.ofList (Nat.toDigits 16 c.toNat) ++ "\x7d"

/-- The text in double quotes. -/
def escaped (text : String) : String :=
  "\"" ++ String.join (text.toList.map escapedChar) ++ "\""

end EntitySql.Text
