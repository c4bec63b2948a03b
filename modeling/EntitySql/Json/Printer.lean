import EntitySql.Decimal.Layout
import EntitySql.Json.Basic

/-!
# Writing JSON

`Json.compact` writes a value without white space. `Json.pretty` puts every item and member on a
line of its own, two spaces further in than its array or object; an empty array or object stays on
one line. Both keep the order of the members.
-/

namespace EntitySql.Json

/-- Four hexadecimal digits of a number. -/
def fourHexDigits (n : Nat) : String :=
  String.ofList [(n / 4096 % 16).digitChar, (n / 256 % 16).digitChar, (n / 16 % 16).digitChar,
    (n % 16).digitChar]

/-- One character of a string. Quotes, backslashes and control characters are escaped. -/
def escapedChar (c : Char) : String :=
  match c with
  | '"' => "\\\""
  | '\\' => "\\\\"
  | '\n' => "\\n"
  | '\r' => "\\r"
  | '\t' => "\\t"
  | '\x08' => "\\b"
  | '\x0c' => "\\f"
  | c => if c.toNat < 0x20 then "\\u" ++ fourHexDigits c.toNat else c.toString

/-- Appends a string in quotes. -/
def writeString (out : String) (text : String) : String :=
  (text.toList.foldl (fun out c => out ++ escapedChar c) (out.push '"')).push '"'

/-- Appends a value that is neither an array nor an object. A double that is not finite has no
written form and becomes `null`. -/
def writePlain (out : String) : Json → String
  | .bool true => out ++ "true"
  | .bool false => out ++ "false"
  | .int value => out ++ toString value
  | .double value => if value.isFinite then out ++ value.text else out ++ "null"
  | .string value => writeString out value
  | _ => out ++ "null"

mutual

/-- Appends a value without white space. -/
def writeCompact (out : String) : Json → String
  | .array items => (writeItems (out.push '[') true items).push ']'
  | .object members => (writeMembers (out.push '\x7b') true members).push '\x7d'
  | value => writePlain out value

/-- Appends the items of an array, each but the first behind a comma. -/
def writeItems (out : String) (first : Bool) : List Json → String
  | [] => out
  | item :: items =>
    writeItems (writeCompact (if first then out else out.push ',') item) false items

/-- Appends the members of an object, each but the first behind a comma. -/
def writeMembers (out : String) (first : Bool) : List (String × Json) → String
  | [] => out
  | (key, value) :: members =>
    let out := (writeString (if first then out else out.push ',') key).push ':'
    writeMembers (writeCompact out value) false members

end

/-- Appends a line end and two spaces for each level. -/
def writeLineEnd (out : String) (level : Nat) : String :=
  out ++ "\n" ++ String.ofList (List.replicate (2 * level) ' ')

mutual

/-- Appends a value at the given level. -/
def writePretty (out : String) (level : Nat) : Json → String
  | .array [] => out ++ "[]"
  | .array items =>
    writeLineEnd (writePrettyItems (out.push '[') (level + 1) true items) level ++ "]"
  | .object [] => out ++ "\x7b\x7d"
  | .object members =>
    writeLineEnd (writePrettyMembers (out.push '\x7b') (level + 1) true members) level ++ "\x7d"
  | value => writePlain out value

/-- Appends the items of an array, each on a line of its own. -/
def writePrettyItems (out : String) (level : Nat) (first : Bool) : List Json → String
  | [] => out
  | item :: items =>
    let out := writeLineEnd (if first then out else out.push ',') level
    writePrettyItems (writePretty out level item) level false items

/-- Appends the members of an object, each on a line of its own. -/
def writePrettyMembers (out : String) (level : Nat) (first : Bool) :
    List (String × Json) → String
  | [] => out
  | (key, value) :: members =>
    let out := writeLineEnd (if first then out else out.push ',') level
    let out := writeString out key ++ ": "
    writePrettyMembers (writePretty out level value) level false members

end

/-- The value without white space. -/
def compact (value : Json) : String :=
  writeCompact "" value

/-- The value with one item or member to a line. -/
def pretty (value : Json) : String :=
  writePretty "" 0 value

end EntitySql.Json
