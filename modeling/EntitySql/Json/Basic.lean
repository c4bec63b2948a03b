import EntitySql.Decimal.Rounding

/-!
# JSON values

Numbers are whole numbers, kept exactly, or doubles. The members of an object keep their order, and
a key may occur more than once: whether that is an error is for the reader of the object to say.
A value can be written correctly and still not be one that can be read. Whether that is an error is
again for the reader to say, who may have no use for it.
-/

namespace EntitySql

open Decimal (Double)

/-- A JSON value. -/
inductive Json where
  | null
  | bool (value : Bool)
  | int (value : Int)
  | double (value : Double)
  | string (value : String)
  | array (items : List Json)
  | object (members : List (String × Json))
  /-- What is written correctly and stands for nothing: a number beyond the doubles, a string with
  half of a pair, an object with such a key, or an array or object that is nested too deep. -/
  | unreadable
deriving Inhabited

namespace Json

mutual

/-- How deep arrays and objects are nested in a value; a plain value has depth zero. -/
def depth : Json → Nat
  | .array items => listDepth items + 1
  | .object members => memberDepth members + 1
  | _ => 0

/-- The greatest depth of the values of a list. -/
def listDepth : List Json → Nat
  | [] => 0
  | item :: items => max item.depth (listDepth items)

/-- The greatest depth of the values of some members. -/
def memberDepth : List (String × Json) → Nat
  | [] => 0
  | (_, value) :: members => max value.depth (memberDepth members)

end

mutual

/-- Whether no part of a value is unreadable. -/
def isReadable : Json → Bool
  | .array items => areReadable items
  | .object members => membersReadable members
  | .unreadable => false
  | _ => true

/-- Whether no part of the values of a list is unreadable. -/
def areReadable : List Json → Bool
  | [] => true
  | item :: items => item.isReadable && areReadable items

/-- Whether no part of the values of some members is unreadable. -/
def membersReadable : List (String × Json) → Bool
  | [] => true
  | (_, value) :: members => value.isReadable && membersReadable members

end

/-- The value of the first member with the given key. -/
def get? (key : String) : Json → Option Json
  | .object members => members.lookup key
  | _ => none

mutual

/-- The value in which each object keeps, of members with one key, only the last. -/
def distinct : Json → Json
  | .array items => .array (distinctItems items)
  | .object members => .object (distinctMembers members)
  | value => value

/-- `distinct` for each value of a list. -/
def distinctItems : List Json → List Json
  | [] => []
  | item :: items => item.distinct :: distinctItems items

/-- `distinct` for each member of an object, without the members that a later one replaces. -/
def distinctMembers : List (String × Json) → List (String × Json)
  | [] => []
  | (key, value) :: members =>
    let rest := distinctMembers members
    if rest.any (·.1 == key) then rest else (key, value.distinct) :: rest

end

end Json

end EntitySql
