import EntitySql.Json.Record

/-!
# Records and variants are read back

What `Json.Record` reads of a value that was laid out as it says: of an object with exactly the
fields of a record, of the name of a case, of a list and of an optional value. The lemmas are
simplification rules, so that a record is read back by simplifying.

Readers of nested data carry a bound on the depth. `ReadsBack` says that a reader gives back what
was written no deeper than that, and passes from the parts to the whole.
-/

namespace EntitySql.Json

variable {α : Type} {names : List String} {members : List (String × Json)}

-- This rule and those on plain values are proved by rewriting: a rule that holds by definition is
-- used without a proof, and numbers of 64 bits must not be unfolded to check that it holds.

@[scoped simp high]
theorem some_bind {β : Type} (a : α) (f : α → Option β) : (some a >>= f) = f a := by
  rw [Option.bind_eq_bind, Option.bind_some]

/-! ## Records -/

/-- All members of an object are found if it has exactly these, in their order. -/
@[simp]
theorem members?_object (hnames : members.map (·.1) = names) (hnodup : names.Nodup) :
    members? names (.object members) = some ⟨false, members⟩ := by
  have hknown : members.filter (fun m => names.contains m.1) = members := by
    refine List.filter_eq_self.2 fun m hm => ?_
    rw [List.contains_iff_mem, ← hnames]
    exact List.mem_map_of_mem hm
  show (if ((members.filter fun m => names.contains m.1).map (·.1)).Nodup then _ else _) = _
  rw [hknown, hnames, if_pos hnodup]

/-- An object with exactly the fields of a record is read as that record. -/
@[simp]
theorem fields?_object (hnames : members.map (·.1) = names) (hnodup : names.Nodup) :
    fields? names (.object members) = some ⟨false, members⟩ :=
  members?_object hnames hnodup

/-- The fields of a case are read like those of a record, in every dialect. -/
@[simp]
theorem caseFields?_object {dialect : Dialect} (hnames : members.map (·.1) = names)
    (hnodup : names.Nodup) :
    dialect.caseFields? names (.object members) = some ⟨false, members⟩ := by
  rw [Dialect.caseFields?, fields?_object hnames hnodup, members?_object hnames hnodup, ite_self]

namespace Fields

variable {positional : Bool} {name other : String} {json : Json} {rest : List (String × Json)}
  {value : Json → Option α} {default : α}

/-- The first member has the name that is looked up. -/
@[simp]
theorem required_cons_self :
    required ⟨positional, (name, json) :: rest⟩ name value = value json := by
  simp [required]

/-- A member with another name is passed over. -/
@[simp]
theorem required_cons_of_ne (h : name ≠ other) :
    required ⟨positional, (other, json) :: rest⟩ name value
      = required ⟨positional, rest⟩ name value := by
  rw [required, required, List.lookup_cons, beq_eq_false_iff_ne.2 h]

/-- A member that is there takes the place of the default. -/
@[simp]
theorem defaulted_cons_self :
    defaulted ⟨positional, (name, json) :: rest⟩ name default value = value json := by
  simp [defaulted]

/-- A member with another name is passed over. -/
@[simp]
theorem defaulted_cons_of_ne (h : name ≠ other) :
    defaulted ⟨positional, (other, json) :: rest⟩ name default value
      = defaulted ⟨positional, rest⟩ name default value := by
  rw [defaulted, defaulted, List.lookup_cons, beq_eq_false_iff_ne.2 h]

/-- A member that is there may still be `null`. -/
@[simp]
theorem optional_cons_self :
    optional ⟨positional, (name, json) :: rest⟩ name value = option? value json := by
  simp [optional]

/-- A member with another name is passed over. -/
@[simp]
theorem optional_cons_of_ne (h : name ≠ other) :
    optional ⟨positional, (other, json) :: rest⟩ name value
      = optional ⟨positional, rest⟩ name value := by
  rw [optional, optional, List.lookup_cons, beq_eq_false_iff_ne.2 h]

end Fields

/-! ## Plain values -/

@[simp]
theorem string?_string (text : String) : string? (.string text) = some text := by
  rw [string?]

@[simp]
theorem bool?_bool (value : Bool) : bool? (.bool value) = some value := by
  rw [bool?]

@[simp]
theorem double?_double (value : Decimal.Double) : double? (.double value) = some value := by
  rw [double?]

/-- A number below the bound is read as it is. -/
theorem natBelow?_int {bound n : Nat} (h : n < bound) : natBelow? bound (.int n) = some n := by
  have hbound : (0 : Int) ≤ n ∧ (n : Int) < bound := by omega
  rw [natBelow?, if_pos hbound, Int.toNat_natCast]

/-- Unsigned numbers of 64 bits are read back. -/
@[simp]
theorem uint64?_toNat (n : UInt64) : uint64? (.int n.toNat) = some n := by
  rw [uint64?, natBelow?_int n.toNat_lt_size, Option.map_some, UInt64.ofNat_toNat]

/-- Unsigned numbers of 32 bits are read back. -/
@[simp]
theorem uint32?_toNat (n : UInt32) : uint32? (.int n.toNat) = some n := by
  rw [uint32?, natBelow?_int n.toNat_lt_size, Option.map_some, UInt32.ofNat_toNat]

/-- Signed numbers of 64 bits are read back. -/
@[simp]
theorem int64?_toInt (n : Int64) : int64? (.int n.toInt) = some n := by
  rw [int64?, if_pos ⟨n.minValue_le_toInt, n.toInt_le⟩, Int64.ofInt_toInt]

/-! ## Cases -/

section

variable {cases : List (String × (Json → Option α))} {read : Json → Option α} {tag other : String}
  {value : Json}

-- these rules look for the case before the cases that it is not are simplified

/-- The first case has the tag. -/
@[simp ↓]
theorem variant?_cons_self : variant? ((tag, read) :: cases) (.variant tag value) = read value := by
  simp [variant?, variant]

/-- A case with another tag is passed over. -/
@[simp ↓]
theorem variant?_cons_of_ne (h : tag ≠ other) :
    variant? ((other, read) :: cases) (.variant tag value)
      = variant? cases (.variant tag value) := by
  rw [variant, variant?, variant?, List.lookup_cons, beq_eq_false_iff_ne.2 h]

/-- A tag without a value is written as a string. -/
@[simp ↓]
theorem variant?_string_cons_self : variant? ((tag, read) :: cases) (.string tag) = read .null := by
  simp [variant?]

/-- A case with another tag is passed over. -/
@[simp ↓]
theorem variant?_string_cons_of_ne (h : tag ≠ other) :
    variant? ((other, read) :: cases) (.string tag) = variant? cases (.string tag) := by
  rw [variant?, variant?, List.lookup_cons, beq_eq_false_iff_ne.2 h]

end

/-- A case without fields is read from `null` in every dialect. -/
@[simp]
theorem unit?_null (dialect : Dialect) (a : α) : dialect.unit? a .null = some a := by
  rw [Dialect.unit?, Dialect.isNoData, if_pos rfl]

/-- The tag of an enumeration is read back, since no two values share one. -/
@[simp]
theorem tag?_tag [Tagged α] (dialect : Dialect) (a : α) : dialect.tag? (.tag a) = some a :=
  Tagged.find_tag a

/-! ## Depth -/

/-- The items of an array are less deep than the array. -/
theorem depth_lt_of_mem_array {items : List Json} {item : Json} (h : item ∈ items) :
    item.depth < (Json.array items).depth := by
  rw [depth, Nat.lt_succ_iff]
  induction items with
  | nil => cases h
  | cons head items ih =>
    rw [listDepth]
    rcases List.mem_cons.1 h with rfl | h
    · exact Nat.le_max_left ..
    · exact Nat.le_trans (ih h) (Nat.le_max_right ..)

/-- How deep an object is depends on the values of its members only. -/
theorem depth_object_le {n : Nat} : (Json.object members).depth ≤ n ↔ memberDepth members < n := by
  rw [depth, Nat.add_one_le_iff]

/-- Members are less deep than a bound if each one is. -/
theorem memberDepth_cons_lt {m : String × Json} {n : Nat} :
    memberDepth (m :: members) < n ↔ m.2.depth < n ∧ memberDepth members < n := by
  rw [memberDepth, Nat.max_lt]

/-- A tag adds one level. -/
theorem depth_variant (tag : String) (value : Json) :
    (variant tag value).depth = value.depth + 1 := by
  rw [variant, depth, memberDepth, memberDepth, Nat.max_zero]

/-- A case of a variant takes two levels: the tag and the object with its fields. -/
theorem depth_case_le {tag : String} {n : Nat} :
    (variant tag (.object members)).depth ≤ n + 1 ↔ memberDepth members < n := by
  rw [depth_variant, Nat.add_le_add_iff_right, depth_object_le]

/-- What is written no deeper than `n` is read back. -/
def ReadsBack (n : Nat) (read : Json → Option α) (write : α → Json) : Prop :=
  ∀ a, (write a).depth ≤ n → read (write a) = some a

namespace ReadsBack

variable {n : Nat} {read : Json → Option α} {write : α → Json}

/-- Lists are read back, one item after the other, if their items are. -/
theorem list (h : ReadsBack n read write) (l : List α)
    (hdepth : (Json.array (l.map write)).depth ≤ n) :
    list? read (.array (l.map write)) = some l := by
  have hitems : ∀ a ∈ l, read (write a) = some a := fun a ha =>
    h a (Nat.le_trans (Nat.le_of_lt (depth_lt_of_mem_array (List.mem_map_of_mem ha))) hdepth)
  clear hdepth
  show (l.map write).mapM read = some l
  induction l with
  | nil => rfl
  | cons a l ih =>
    rw [List.map_cons, List.mapM_cons, hitems a (List.mem_cons_self ..),
      ih fun b hb => hitems b (List.mem_cons_of_mem _ hb)]
    rfl

/-- A value that may be missing is read back if no value is written as `null`. -/
theorem option (h : ReadsBack n read write) (hnull : ∀ a, write a ≠ .null) (o : Option α)
    (hdepth : (ofOption write o).depth ≤ n) : option? read (ofOption write o) = some o := by
  cases o with
  | none => rfl
  | some a =>
    rw [ofOption, option?, h a hdepth]
    · rfl
    · exact hnull a

end ReadsBack

/-- Whatever is written is read back. -/
theorem ReadsBack.of_forall {read : Json → Option α} {write : α → Json} {n : Nat}
    (h : ∀ a, read (write a) = some a) : ReadsBack n read write :=
  fun a _ => h a

/-- Lists are read back, however deep they are, if all items are. -/
@[simp]
theorem list?_array {read : Json → Option α} {write : α → Json} {l : List α}
    (h : ∀ a, read (write a) = some a) : list? read (.array (l.map write)) = some l :=
  (ReadsBack.of_forall h).list l (Nat.le_refl _)

/-- Lists of texts are read back. -/
@[simp]
theorem list?_strings (texts : List String) : list? string? (.strings texts) = some texts :=
  list?_array string?_string

/-- A value that may be missing is read back, however deep it is. -/
@[simp]
theorem option?_ofOption {read : Json → Option α} {write : α → Json} {o : Option α}
    (h : ∀ a, read (write a) = some a) (hnull : ∀ a, write a ≠ .null) :
    option? read (ofOption write o) = some o :=
  (ReadsBack.of_forall h).option hnull o (Nat.le_refl _)

end EntitySql.Json
