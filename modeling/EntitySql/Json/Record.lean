import EntitySql.Json.Basic

/-!
# Records and variants in JSON

How structured data is laid out as JSON. A record is an object with a member for each field, or an
array with the values of the fields in order. A variant is the name of a case, alone if the case has
no data and else as the only key of an object that holds the data. A member that no field asks for
is ignored, and a field that occurs twice is an error. A `Dialect` says which spellings of the data
of a case are accepted besides.
-/

namespace EntitySql.Json

variable {α : Type}

/-! ## Plain values -/

/-- The text of a string. -/
def string? : Json → Option String
  | .string value => some value
  | _ => none

/-- The value of a truth value. -/
def bool? : Json → Option Bool
  | .bool value => some value
  | _ => none

/-- A whole number from zero up to a bound that is excluded. -/
def natBelow? (bound : Nat) : Json → Option Nat
  | .int value => if 0 ≤ value ∧ value < bound then some value.toNat else none
  | _ => none

/-- A number of 64 bits without a sign. -/
def uint64? (json : Json) : Option UInt64 :=
  (json.natBelow? UInt64.size).map UInt64.ofNat

/-- A number of 32 bits without a sign. -/
def uint32? (json : Json) : Option UInt32 :=
  (json.natBelow? UInt32.size).map UInt32.ofNat

/-- A number of 64 bits with a sign. -/
def int64? : Json → Option Int64
  | .int value =>
    if Int64.minValue.toInt ≤ value ∧ value ≤ Int64.maxValue.toInt then some (Int64.ofInt value)
    else none
  | _ => none

/-- A number as a double. -/
def double? : Json → Option Decimal.Double
  | .int value => some (.ofInt value)
  | .double value => some value
  | _ => none

/-- The items of an array. -/
def list? (item : Json → Option α) : Json → Option (List α)
  | .array items => items.mapM item
  | _ => none

/-- A value that may be absent, which `null` says. -/
def option? (value : Json → Option α) : Json → Option (Option α)
  | .null => some none
  | json => (value json).map some

/-- A list of texts. -/
def strings (texts : List String) : Json :=
  .array (texts.map .string)

/-- A value that may be absent. -/
def ofOption (value : α → Json) : Option α → Json
  | none => .null
  | some a => value a

/-! ## Records -/

/-- The fields of a record that are present. -/
structure Fields where
  /-- Whether the record is an array, in which only fields with a default may be left out. -/
  positional : Bool
  values : List (String × Json)

/-- The fields of a record that must be an object. -/
def members? (names : List String) : Json → Option Fields
  | .object members =>
    let known := members.filter fun (name, _) => names.contains name
    if (known.map (·.1)).Nodup then some ⟨false, known⟩ else none
  | _ => none

/-- The fields of a record. -/
def fields? (names : List String) : Json → Option Fields
  | .array items => if items.length ≤ names.length then some ⟨true, names.zip items⟩ else none
  | json => json.members? names

namespace Fields

/-- The value of a field that must be present. -/
def required (fields : Fields) (name : String) (value : Json → Option α) : Option α := do
  value (← fields.values.lookup name)

/-- The value of a field that has a default. -/
def defaulted (fields : Fields) (name : String) (default : α) (value : Json → Option α) :
    Option α :=
  match fields.values.lookup name with
  | some json => value json
  | none => some default

/-- The value of a field that may be absent. -/
def optional (fields : Fields) (name : String) (value : Json → Option α) : Option (Option α) :=
  match fields.values.lookup name with
  | some json => option? value json
  | none => if fields.positional then none else some none

end Fields

/-! ## Variants -/

/-- The case with this name and data. The data of a case that stands alone is `null`. -/
def variant? (cases : List (String × (Json → Option α))) : Json → Option α
  | .string tag => do (← cases.lookup tag) .null
  | .object [(tag, value)] => do (← cases.lookup tag) value
  | _ => none

/-- A case with data. -/
def variant (tag : String) (value : Json) : Json :=
  .object [(tag, value)]

end EntitySql.Json

namespace EntitySql

/-- A type with finitely many members that have names. -/
class Tagged (α : Type) where
  all : List α
  tag : α → String
  /-- The name tells which member it is. -/
  find_tag : ∀ a, all.find? (fun b => tag b = tag a) = some a

namespace Json

variable {α : Type} [Tagged α]

/-- The member with this name. -/
def ofTag? (tag : String) : Option α :=
  Tagged.all.find? fun a => Tagged.tag a = tag

/-- The name of a member. -/
def tag (a : α) : Json :=
  .string (Tagged.tag a)

end Json

/-! ## Dialects -/

/-- Which spellings of the data of a case are accepted beside the usual ones. -/
structure Json.Dialect where
  /-- The fields of a case may be an array with their values in order, as those of a record may. -/
  positional : Bool
  /-- The data of a case without data may be an empty object as well as `null`. -/
  emptyObject : Bool

namespace Json.Dialect

/-- The usual spellings only. -/
def strict : Dialect :=
  ⟨false, false⟩

/-- The dialect of a text that is read on its own. -/
def text : Dialect :=
  ⟨true, false⟩

/-- The dialect of a record whose fields stand among those of another record. -/
def embedded : Dialect :=
  ⟨true, true⟩

variable {α : Type} (dialect : Dialect)

/-- The fields of a case. -/
def caseFields? (names : List String) (json : Json) : Option Fields :=
  if dialect.positional then json.fields? names else json.members? names

/-- Whether a value is the data of a case without data. -/
def isNoData : Json → Bool
  | .null => true
  | .object [] => dialect.emptyObject
  | _ => false

/-- A case without data. -/
def unit? (a : α) (json : Json) : Option α :=
  if dialect.isNoData json then some a else none

/-- The member with the name that the value holds. -/
def tag? [Tagged α] : Json → Option α
  | .string tag => ofTag? tag
  | .object [(tag, data)] => if dialect.isNoData data then ofTag? tag else none
  | _ => none

end Json.Dialect

end EntitySql
