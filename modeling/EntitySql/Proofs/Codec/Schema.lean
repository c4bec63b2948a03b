import EntitySql.Codec.Options
import EntitySql.Codec.Schema
import EntitySql.Proofs.Codec.Exact
import EntitySql.Proofs.Codec.Record

/-!
# Types and schemas are read back

Types of values are nested, so that reading one back is an induction on the bound of the reader.
Everything else in a schema is a record or a variant of types, names and class numbers.
-/

namespace EntitySql

open Json (Dialect ReadsBack depth_object_le depth_variant memberDepth_cons_lt)
open scoped Json

variable {dialect : Dialect} {n : Nat}

/-- Identifiers of classes are read back. -/
@[simp]
theorem ClassId.ofJson?_toJson (id : ClassId) : ofJson? id.toJson = some id := by
  simp [ofJson?, toJson]

@[simp]
theorem ClassId.exact_toJson (id : ClassId) : id.toJson.Exact := by
  simp [toJson]

/-! ## Types -/

/-- The JSON form of a member of a struct. -/
def StructMember.toJson (member : StructMember) : Json :=
  .object [("name", .string member.name), ("type_info", member.type.toJson)]

/-- In the recursion over types, members are written one by one. -/
theorem structMembersJson_eq (members : List StructMember) :
    structMembersJson members = members.map StructMember.toJson := by
  induction members with
  | nil => rw [structMembersJson, List.map_nil]
  | cons member members ih =>
    obtain ⟨name, type⟩ := member
    rw [structMembersJson, ih, List.map_cons, StructMember.toJson]

/-- A struct is written with its name and its members. -/
theorem StructType.toJson_eq (type : StructType) : type.toJson
    = .object [("name", .string type.name),
      ("members", .array (type.members.map StructMember.toJson))] := by
  obtain ⟨name, members⟩ := type
  rw [toJson, structMembersJson_eq]

/-- Members are read back if their types are. -/
theorem StructMember.readsBack {type : Json → Option ValueType}
    (h : ReadsBack n type ValueType.toJson) : ReadsBack n (ofJsonUsing? type) toJson := by
  rintro ⟨name, memberType⟩ hdepth
  simp only [toJson, depth_object_le, memberDepth_cons_lt] at hdepth
  simp [ofJsonUsing?, toJson, h memberType (by omega)]

/-- Structs are read back if the types of their members are. -/
theorem StructType.readsBack {type : Json → Option ValueType}
    (h : ReadsBack n type ValueType.toJson) : ReadsBack n (ofJsonUsing? type) toJson := by
  rintro ⟨name, members⟩ hdepth
  rw [toJson_eq] at hdepth ⊢
  simp only [depth_object_le, memberDepth_cons_lt] at hdepth
  simp [ofJsonUsing?, (StructMember.readsBack h).list members (by omega)]

/-- Types are read back with enough depth, by induction on it: the members of a struct are less
deep. -/
theorem ValueType.readsBack_within (dialect : Dialect) (bound : Nat) :
    ReadsBack bound (ofJsonWithin? dialect (bound + 1)) toJson := by
  induction bound with
  | zero =>
    intro type hdepth
    rw [ofJsonWithin?, cases]
    cases type with
    | unknown | null =>
      rw [toJson]
      simp
    | primitive | struct | navigation | primitiveArray | structArray =>
      exact absurd hdepth (by simp [toJson, depth_variant])
  | succ bound ih =>
    intro type hdepth
    rw [ofJsonWithin?, cases]
    cases type with
    | unknown | null | primitive | primitiveArray | navigation =>
      rw [toJson]
      simp
    | struct type | structArray type =>
      rw [toJson, depth_variant] at hdepth
      rw [toJson]
      simp [StructType.readsBack ih type (by omega)]

/-- Types are read back, however deep they are. -/
@[simp]
theorem ValueType.ofJson?_toJson (type : ValueType) : ofJson? dialect type.toJson = some type :=
  readsBack_within dialect _ type (Nat.le_refl _)

/-- Structs are read back, however deep they are. -/
@[simp]
theorem StructType.ofJson?_toJson (type : StructType) : ofJson? dialect type.toJson = some type :=
  StructType.readsBack (.of_forall fun _ => ValueType.ofJson?_toJson _) type (Nat.le_refl _)

mutual

/-- Types hold no floating-point numbers. -/
@[simp]
theorem ValueType.exact_toJson : (type : ValueType) → type.toJson.Exact
  | .unknown | .null | .primitive _ | .navigation _ | .primitiveArray _ => by
    simp [ValueType.toJson]
  | .struct type | .structArray type => by simp [ValueType.toJson, StructType.exact_toJson type]

/-- Structs hold no floating-point numbers. -/
@[simp]
theorem StructType.exact_toJson : (type : StructType) → type.toJson.Exact
  | ⟨_, members⟩ => by simpa [StructType.toJson] using exact_structMembersJson members

/-- Neither do the members of a struct. -/
theorem exact_structMembersJson :
    (members : List StructMember) → ∀ json ∈ structMembersJson members, json.Exact
  | [] => by simp [structMembersJson]
  | ⟨_, type⟩ :: members => by
    simpa [structMembersJson, ValueType.exact_toJson type] using exact_structMembersJson members

end

/-! ## Classes -/

/-- Navigations are read back with their relationship class. -/
@[simp]
theorem Navigation.ofJson?_toJson (navigation : Navigation) :
    ofJson? dialect navigation.toJson = some navigation := by
  simp [ofJson?, toJson]

/-- Kinds of properties are read back. -/
@[simp]
theorem PropertyKind.ofJson?_toJson (kind : PropertyKind) :
    ofJson? dialect kind.toJson = some kind := by
  cases kind <;> simp [ofJson?, toJson]

/-- Properties are read back with their kind. -/
@[simp]
theorem Property.ofJson?_toJson (property : Property) :
    ofJson? dialect property.toJson = some property := by
  simp [ofJson?, toJson]

/-- The ends of a relationship are read back. -/
@[simp]
theorem RelationshipEnds.ofJson?_toJson (ends : RelationshipEnds) :
    ofJson? ends.toJson = some ends := by
  simp [ofJson?, toJson]

/-- So `null` can stand for a class that is no relationship. -/
@[simp]
theorem RelationshipEnds.toJson_ne_null (ends : RelationshipEnds) : ends.toJson ≠ .null := by
  simp [toJson]

/-- Kinds of properties hold no floating-point numbers. -/
theorem PropertyKind.exact_toJson (kind : PropertyKind) : kind.toJson.Exact := by
  cases kind <;> simp [toJson, Navigation.toJson]

/-- Definitions of classes hold no floating-point numbers. -/
theorem ClassDef.exact_members (c : ClassDef) : ∀ m ∈ c.members, m.2.Exact := by
  simp [members, Property.toJson, PropertyKind.exact_toJson, RelationshipEnds.toJson]

/-- The fields of a class are read back where they stand before others. -/
theorem ClassDef.ofFields?_members (c : ClassDef) (rest : List (String × Json)) :
    ofFields? dialect ⟨false, c.members ++ rest⟩ = some c := by
  simp [ofFields?, members]

/-! ## Storage -/

/-- Tables are read back with their columns. -/
@[simp]
theorem Table.ofJson?_toJson (table : Table) : ofJson? table.toJson = some table := by
  simp [ofJson?, toJson]

/-- What a column is filled from is read back. -/
@[simp]
theorem ColumnSource.ofJson?_toJson (source : ColumnSource) :
    ofJson? source.toJson = some source := by
  cases source <;> simp [ofJson?, toJson]

/-- What a column is filled from holds no floating-point number. -/
theorem ColumnSource.exact_toJson (source : ColumnSource) : source.toJson.Exact := by
  cases source <;> simp [toJson]

/-- Columns of maps are read back. -/
@[simp]
theorem MappedColumn.ofJson?_toJson (column : MappedColumn) :
    ofJson? column.toJson = some column := by
  simp [ofJson?, toJson]

/-- Maps of classes are read back with all their columns. -/
theorem ClassMap.ofJson?_toJson (map : ClassMap) : ofJson? map.toJson = some map := by
  simp [ofJson?, toJson]

/-- Maps of classes hold no floating-point numbers. -/
theorem ClassMap.exact_toJson (map : ClassMap) : map.toJson.Exact := by
  simp [toJson, MappedColumn.toJson, ColumnSource.exact_toJson]

/-! ## Definitions -/

/-- Entries of a catalog hold no floating-point numbers. -/
theorem ClassEntry.exact_toJson (entry : ClassEntry) : entry.toJson.Exact := by
  simpa [toJson, or_imp, forall_and] using entry.definition.exact_members

/-- Entries of a catalog are read back, with a map or without one. -/
theorem ClassEntry.ofJson?_toJson (entry : ClassEntry) : ofJson? entry.toJson = some entry := by
  have hfields : entry.toJson.members?
      (ClassDef.fieldNames ++ ["table", "allows_polymorphic_queries"])
      = some ⟨false, entry.definition.members ++ [("table", .ofOption .string entry.table),
        ("allows_polymorphic_queries", .bool entry.polymorphic)]⟩ :=
    Json.members?_object rfl (by decide)
  have hreadable : (guard entry.toJson.isReadable : Option Unit) = some () := by
    rw [entry.exact_toJson.isReadable]
    rfl
  rw [ofJson?, hreadable, hfields]
  simp only [Json.some_bind, ClassDef.ofFields?_members]
  simp [ClassDef.members]

/-- Definitions of catalogs are read back, with all entries in their order. -/
@[simp]
theorem CatalogDefinition.ofJson?_toJson (definition : CatalogDefinition) :
    ofJson? definition.toJson = some definition := by
  simp [ofJson?, toJson, ClassEntry.ofJson?_toJson]

/-- Definitions of catalogs hold no floating-point numbers. -/
theorem CatalogDefinition.exact_toJson (definition : CatalogDefinition) :
    definition.toJson.Exact := by
  simp [toJson, Table.toJson, ClassEntry.exact_toJson]

/-! ## Options -/

namespace Text

/-- A name behind all others is put at the end. -/
theorem insertSorted_eq_concat {name : String} {names : List String} (h : ∀ x ∈ names, x < name) :
    insertSorted name names = names ++ [name] := by
  induction names with
  | nil => rfl
  | cons head tail ih =>
    have hlt : head < name := h head (List.mem_cons_self ..)
    rw [insertSorted, if_neg (String.lt_asymm hlt),
      if_neg fun heq => String.lt_irrefl _ (heq ▸ hlt), ih fun x hx => h x (List.mem_cons_of_mem _ hx)]
    rfl

/-- Names that come in their order are put one behind the other. -/
theorem NameSet.toList_foldl_insert {names : List String} {set : NameSet}
    (h : (set.toList ++ names).Pairwise (· < ·)) :
    (names.foldl insert set).toList = set.toList ++ names := by
  induction names generalizing set with
  | nil => exact (List.append_nil _).symm
  | cons name names ih =>
    have hinsert : (set.insert name).toList = set.toList ++ [name] :=
      insertSorted_eq_concat fun x hx =>
        (List.pairwise_append.1 h).2.2 x hx name (List.mem_cons_self ..)
    rw [List.foldl_cons, ih, hinsert, List.append_assoc]
    · rfl
    · rwa [hinsert, List.append_assoc]

/-- A set of names is made again from its list, which is in order and without repetition. -/
theorem NameSet.ofList_toList (set : NameSet) : ofList set.toList = set :=
  NameSet.ext (toList_foldl_insert set.sorted)

end Text

/-- Options are read back with all names of disabled functions. -/
theorem Options.ofJson?_toJson (options : Options) : ofJson? options.toJson = some options := by
  simp [ofJson?, toJson, Text.NameSet.ofList_toList]

/-- Options hold no floating-point numbers. -/
theorem Options.exact_toJson (options : Options) : options.toJson.Exact := by
  simp [toJson]

end EntitySql
