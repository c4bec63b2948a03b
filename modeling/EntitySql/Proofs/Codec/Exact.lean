import EntitySql.Json.Record

/-!
# Values that survive being written

A value is exact if its numbers are whole numbers of 64 bits or finite doubles and it has no part
that cannot be read. A double that is not finite has no text, so a layer that carries values as text
can keep exact values only.
-/

namespace EntitySql.Json

variable {α : Type}

/-- All numbers are whole numbers of 64 bits or finite doubles. -/
inductive Exact : Json → Prop
  | null : Exact .null
  | bool (value : Bool) : Exact (.bool value)
  | string (text : String) : Exact (.string text)
  | unsigned (n : UInt64) : Exact (.int n.toNat)
  | signed (n : Int64) : Exact (.int n.toInt)
  | double {value : Decimal.Double} (h : value.isFinite = true) : Exact (.double value)
  | array {items : List Json} (h : ∀ item ∈ items, Exact item) : Exact (.array items)
  | object {members : List (String × Json)} (h : ∀ m ∈ members, Exact m.2) :
    Exact (.object members)

/-! ## How values are put together -/

attribute [simp] Exact.null Exact.bool Exact.string

/-- An array is exact if its items are. -/
@[simp]
theorem exact_array {items : List Json} :
    (Json.array items).Exact ↔ ∀ item ∈ items, item.Exact := by
  constructor
  · rintro ⟨⟩
    assumption
  · exact .array

/-- An object is exact if the values of its members are, whatever their names. -/
@[simp]
theorem exact_object {members : List (String × Json)} :
    (Json.object members).Exact ↔ ∀ m ∈ members, m.2.Exact := by
  constructor
  · rintro ⟨⟩
    assumption
  · exact .object

/-- A tag adds nothing that could be rounded. -/
@[simp]
theorem exact_variant {tag : String} {value : Json} : (variant tag value).Exact ↔ value.Exact := by
  simp [variant]

/-- Tags hold no numbers. -/
@[simp]
theorem exact_tag [Tagged α] (a : α) : (tag a).Exact :=
  .string _

@[simp]
theorem exact_strings (texts : List String) : (strings texts).Exact := by
  simp [strings]

/-- A missing value is `null`, which is exact. -/
@[simp]
theorem exact_ofOption {write : α → Json} {o : Option α} :
    (ofOption write o).Exact ↔ ∀ a ∈ o, (write a).Exact := by
  cases o with
  | none => simp [ofOption]
  | some a => simp [ofOption]

/-- Unsigned numbers of 64 bits are within the range of integers that are read back. -/
@[simp]
theorem exact_uint64 (n : UInt64) : (Json.int n.toNat).Exact :=
  .unsigned n

@[simp]
theorem exact_uint32 (n : UInt32) : (Json.int n.toNat).Exact := by
  rw [← n.toNat_toUInt64]
  exact .unsigned _

/-- Signed numbers of 64 bits are within the range of integers that are read back. -/
@[simp]
theorem exact_int64 (n : Int64) : (Json.int n.toInt).Exact :=
  .signed n

/-- Infinite numbers and those that are none have no spelling. -/
@[simp]
theorem exact_double {value : Decimal.Double} :
    (Json.double value).Exact ↔ value.isFinite = true := by
  constructor
  · rintro ⟨⟩
    assumption
  · exact .double

/-! ## Exact values are readable -/

/-- All items are readable if each one is. -/
theorem areReadable_iff {items : List Json} :
    areReadable items = true ↔ ∀ item ∈ items, item.isReadable = true := by
  induction items with
  | nil => simp [areReadable]
  | cons item items ih => simp [areReadable, ih]

/-- All members are readable if the value of each one is. -/
theorem membersReadable_iff {members : List (String × Json)} :
    membersReadable members = true ↔ ∀ m ∈ members, m.2.isReadable = true := by
  induction members with
  | nil => simp [membersReadable]
  | cons m members ih =>
    obtain ⟨key, value⟩ := m
    simp [membersReadable, ih]

/-- What is exact can be read back from its text. -/
theorem Exact.isReadable {json : Json} (h : json.Exact) : json.isReadable = true := by
  induction h with
  | null | bool | string | unsigned | signed | double => rw [Json.isReadable] <;> simp
  | array _ ih => exact areReadable_iff.2 ih
  | object _ ih => exact membersReadable_iff.2 ih

end EntitySql.Json
