import EntitySql.Json.Lexer

/-!
# Reading JSON

Tokens are read one by one; arrays and objects that are still open are on a stack. How many of them
may be open at once can be limited; those beyond the limit are unreadable.
-/

namespace EntitySql.Json

/-- The members of an object so far, in reverse order, unless a key has no value. -/
abbrev OpenMembers := Option (List (String × Json))

/-- An array or object that is still open. What it holds so far is in reverse order. -/
inductive Open where
  | array (items : List Json)
  | object (members : OpenMembers) (key : Option String)

/-- What may come next. -/
inductive Expect where
  /-- A value. -/
  | value
  /-- The first value of an array, or its end. -/
  | firstItem
  /-- The first key of an object, or its end. -/
  | firstKey
  /-- A key. -/
  | key (members : OpenMembers)
  /-- The colon behind a key. -/
  | colon (members : OpenMembers) (key : Option String)
  /-- A comma or the end of the innermost array or object. -/
  | more
  /-- Nothing more: this value is all. -/
  | done (value : Json)

/-- The parser between two tokens. Inside an object, before the colon, the object itself is not on
the stack. -/
structure Parser where
  stack : List Open
  expect : Expect

namespace Parser

/-- A value is complete and goes to the innermost open array or object. -/
def complete (stack : List Open) (value : Json) : Parser :=
  match stack with
  | [] => ⟨[], .done value⟩
  | .array items :: rest => ⟨.array (value :: items) :: rest, .more⟩
  | .object members key :: rest =>
    let members := do return (← key, value) :: (← members)
    ⟨.object members key :: rest, .more⟩

/-- An array or object inside those on the stack is complete. -/
def close (limit : Option Nat) (stack : List Open) (value : Json) : Parser :=
  complete stack (if limit.any (stack.length ≥ ·) then .unreadable else value)

/-- The object with the given members, or nothing that can be read. -/
def objectOf (members : OpenMembers) : Json :=
  match members with
  | some members => .object members.reverse
  | none => .unreadable

/-- A value begins with this token. -/
def beginValue? (stack : List Open) : Token → Option Parser
  | .string (some value) => some (complete stack (.string value))
  | .string none => some (complete stack .unreadable)
  | .plain value => some (complete stack value)
  | .openArray => some ⟨.array [] :: stack, .firstItem⟩
  | .openObject => some ⟨stack, .firstKey⟩
  | _ => none

/-- One token moves the parser on; `none` if it cannot stand there. -/
def next? (limit : Option Nat) (parser : Parser) (token : Token) : Option Parser :=
  match parser.expect, token, parser.stack with
  | .value, token, stack => beginValue? stack token
  | .firstItem, .closeArray, .array _ :: stack => some (close limit stack (.array []))
  | .firstItem, token, stack => beginValue? stack token
  | .firstKey, .closeObject, stack => some (close limit stack (.object []))
  | .firstKey, .string key, stack => some ⟨stack, .colon (some []) key⟩
  | .key members, .string key, stack => some ⟨stack, .colon members key⟩
  | .colon members key, .colon, stack => some ⟨.object members key :: stack, .value⟩
  | .more, .comma, .array items :: stack => some ⟨.array items :: stack, .value⟩
  | .more, .comma, .object members _ :: stack => some ⟨stack, .key members⟩
  | .more, .closeArray, .array items :: stack => some (close limit stack (.array items.reverse))
  | .more, .closeObject, .object members _ :: stack => some (close limit stack (objectOf members))
  | _, _, _ => none

end Parser

/-- Reads a text that is exactly one value. If there is a limit, arrays and objects that are nested
deeper are unreadable. -/
def parseWithin? (limit : Option Nat) (text : String) : Option Json := do
  let parser ← (← tokens? text).foldlM (Parser.next? limit) ⟨[], .value⟩
  match parser.expect with
  | .done value => return value
  | _ => none

/-- Reads a text that is exactly one value, all of which can be read. -/
def parse? (text : String) : Option Json := do
  let value ← parseWithin? none text
  guard value.isReadable
  return value

end EntitySql.Json
