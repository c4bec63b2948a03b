import EntitySql.Proofs.Catalog.Columns
import EntitySql.Proofs.Storage.Rows

/-!
# Columns with the same name

Which columns of a class have the same name follows from where they come from: a system property,
the end of a path through a property, or one half of a navigation value. There are three ways to
meet: two paths with underscores in their names are joined to the same text, a half is named like
another column, or a column of a property is also the column of a system property in the table
(`Catalog.columns_keptApart_iff`).
-/

namespace EntitySql

/-! ## Texts that join to the same text -/

namespace Text

variable {separator a b x y : String} {l m : List String} {c : Char}

/-- Where two paths part, the first one goes on below its name, and the second one goes on with a
name that begins with that name and an underscore. -/
def shadows : List String → List String → Bool
  | a :: l, b :: m =>
    if a = b then shadows l m else !l.isEmpty && (a.toList ++ ['_']).isPrefixOf b.toList
  | _, _ => false

theorem shadows_nil (m : List String) : shadows [] m = false := rfl

theorem along_cons (separator a x : String) (l : List String) :
    along separator a (x :: l) = a ++ separator ++ along separator x l := by
  rw [← String.toList_inj, String.toList_append, toList_along, toList_along]
  simp

/-- Paths from the same name are told apart behind it. -/
theorem along_cons_inj (h : along separator a (x :: l) = along separator a (y :: m)) :
    along separator x l = along separator y m := by
  rw [along_cons, along_cons] at h
  exact (String.append_right_inj _).1 h

/-- A name that reaches into what is joined to another one goes on with the separator. -/
theorem eq_or_isPrefix {rest behind : List Char} (hc : separator.toList = [c])
    (hname : b.toList = a.toList ++ rest)
    (hrest : (l.flatMap fun next => separator.toList ++ next.toList) = rest ++ behind) :
    a = b ∨ (l ≠ [] ∧ a.toList ++ [c] <+: b.toList) := by
  cases rest with
  | nil =>
    rw [List.append_nil] at hname
    exact .inl (String.toList_inj.1 hname.symm)
  | cons first rest =>
    cases l with
    | nil => cases hrest
    | cons next l =>
      rw [List.flatMap_cons, hc] at hrest
      obtain ⟨rfl, -⟩ := List.cons.inj hrest
      refine .inr ⟨List.cons_ne_nil _ _, rest, ?_⟩
      rw [hname, List.append_assoc, List.singleton_append]

/-- Names that are joined to the same text begin with the same name, or one of the first names
begins with the other one and the separator. -/
theorem along_cases (hc : separator.toList = [c])
    (h : along separator a l = along separator b m) :
    a = b ∨ (l ≠ [] ∧ a.toList ++ [c] <+: b.toList) ∨ (m ≠ [] ∧ b.toList ++ [c] <+: a.toList) := by
  have hchars := congrArg String.toList h
  rw [toList_along, toList_along, List.append_eq_append_iff] at hchars
  rcases hchars with ⟨rest, hb, hrest⟩ | ⟨rest, ha, hrest⟩
  · exact (eq_or_isPrefix hc hb hrest).imp_right .inl
  · exact (eq_or_isPrefix hc ha hrest).imp Eq.symm .inr

/-- A name is not a path that goes on from it. -/
theorem along_nil_ne_cons : along "_" a [] ≠ along "_" a (y :: m) := by
  intro h
  have hlength := congrArg (·.toList.length) h
  simp only [along_cons, String.toList_append, List.length_append] at hlength
  have hnil : along "_" a [] = a := rfl
  have hone : "_".toList.length = 1 := rfl
  rw [hnil, hone] at hlength
  omega

/-- Where the first names differ, a shadow is a name that goes on with an underscore. -/
theorem shadows_iff_of_ne (hne : a ≠ b) :
    shadows (a :: l) (b :: m) = true ↔ l ≠ [] ∧ a.toList ++ ['_'] <+: b.toList := by
  rw [shadows, if_neg hne, Bool.and_eq_true, List.isPrefixOf_iff_prefix, Bool.not_eq_true',
    List.isEmpty_eq_false_iff]

/-- Paths with the same spelling begin with the same name, unless one shadows the other. -/
theorem head_eq_of_along (hshadows : shadows (a :: l) (b :: m) = false)
    (hshadows' : shadows (b :: m) (a :: l) = false) (h : along "_" a l = along "_" b m) : a = b := by
  by_contra hne
  rcases along_cases (c := '_') rfl h with heq | hprefix | hprefix
  · exact hne heq
  · rw [(shadows_iff_of_ne hne).2 hprefix] at hshadows
    cases hshadows
  · rw [(shadows_iff_of_ne (Ne.symm hne)).2 hprefix] at hshadows'
    cases hshadows'

/-- Without shadows, a text can be joined in one way only. -/
theorem along_inj (hshadows : shadows (a :: l) (b :: m) = false)
    (hshadows' : shadows (b :: m) (a :: l) = false) (h : along "_" a l = along "_" b m) :
    a :: l = b :: m := by
  induction l generalizing a b m with
  | nil =>
    obtain rfl := head_eq_of_along hshadows hshadows' h
    cases m with
    | nil => rfl
    | cons y m => exact absurd h along_nil_ne_cons
  | cons x l ih =>
    obtain rfl := head_eq_of_along hshadows hshadows' h
    cases m with
    | nil => exact absurd h.symm along_nil_ne_cons
    | cons y m =>
      rw [shadows, if_pos rfl] at hshadows hshadows'
      rw [ih hshadows hshadows' (along_cons_inj h)]

/-- Texts that are the same both with dots and with underscores cast no shadow: what stands behind a
name cannot be both a dot and an underscore. -/
theorem shadows_eq_false (hdots : along "." a l = along "." b m)
    (hunderscores : along "_" a l = along "_" b m) : shadows (a :: l) (b :: m) = false := by
  induction l generalizing a b m with
  | nil =>
    by_cases heq : a = b
    · rw [shadows, if_pos heq]
      exact shadows_nil m
    · rw [shadows, if_neg heq]
      rfl
  | cons x l ih =>
    by_cases heq : a = b
    · subst heq
      rw [shadows, if_pos rfl]
      cases m with
      | nil => rfl
      | cons y m => exact ih (along_cons_inj hdots) (along_cons_inj hunderscores)
    · refine Bool.eq_false_iff.2 fun hshadows => ?_
      obtain ⟨-, r, hr⟩ := (shadows_iff_of_ne heq).1 hshadows
      rcases along_cases (c := '.') rfl hdots with hsame | ⟨-, r', hr'⟩ | ⟨-, r', hr'⟩
      · exact heq hsame
      · rw [← hr', List.append_assoc, List.append_assoc] at hr
        cases List.append_cancel_left hr
      · have hlength := congrArg List.length hr
        have hlength' := congrArg List.length hr'
        simp only [List.length_append, List.length_singleton] at hlength hlength'
        omega

end Text

/-! ## Where columns come from -/

/-- What a column of a class stands for. -/
inductive ColumnOrigin where
  /-- A system property. -/
  | system (name : String)
  /-- The end of a path through the property of this name. -/
  | value (name : String) (path : List String)
  /-- One half of the navigation property of this name. -/
  | half (name part : String)
deriving DecidableEq

namespace ColumnOrigin

/-- The path of the column. -/
def access : ColumnOrigin → String
  | system name => name
  | value name path => Text.along "." name path
  | half name part => name ++ "." ++ part

/-- The first of the names that the column is named by. The halves of a navigation value are not
separated from its name. -/
def root : ColumnOrigin → String
  | system name => name
  | value name _ => name
  | half name part => name ++ part

/-- The names behind the first one. -/
def path : ColumnOrigin → List String
  | value _ path => path
  | system _ | half .. => []

/-- All names that the column is named by. -/
def spelling (origin : ColumnOrigin) : List String :=
  origin.root :: origin.path

/-- The name under which queries see the column. -/
def viewName (origin : ColumnOrigin) : String :=
  Text.along "_" origin.root origin.path

end ColumnOrigin

/-- The names of the halves of a navigation value. -/
def halfNames : List String := ["Id", "RelECClassId"]

/-- Where the columns of a property come from. -/
def Property.origins (p : Property) : List ColumnOrigin :=
  if p.navigation? = none then p.type.paths.map (.value p.name) else halfNames.map (.half p.name)

/-- The system properties of a class. -/
def ClassDef.systemNames (c : ClassDef) : List String :=
  systemProperties.take (if c.isRelationship then 6 else 2)

/-- Where the columns of a class come from. -/
def ClassDef.origins (c : ClassDef) (properties : List Property) : List ColumnOrigin :=
  c.systemNames.map .system ++ properties.flatMap Property.origins

/-- The path and the name of a column. -/
def MappedColumn.label (column : MappedColumn) : String × String :=
  (column.access, column.viewName)

/-- The path and the name of a column that comes from here. -/
def ColumnOrigin.label (origin : ColumnOrigin) : String × String :=
  (origin.access, origin.viewName)

/-- The labels of the columns of a property are read off where they come from. -/
theorem Property.map_label_columns (p : Property) :
    p.columns.map (·.label) = p.origins.map (·.label) := by
  by_cases hkind : p.navigation? = none
  · rw [columns_of_value hkind, origins, if_pos hkind, List.map_map, List.map_map]
    rfl
  · rw [columns_of_navigation hkind, origins, if_neg hkind]
    rfl

/-- The labels of system columns are read off where they come from. -/
theorem map_label_systemColumns (c : ClassDef) (table : Table) :
    (systemColumns c table).map (·.label) = (c.systemNames.map ColumnOrigin.system).map (·.label) := by
  rw [systemColumns, ClassDef.systemNames]
  split <;> rfl

/-- The columns of a class, by their paths and names. -/
theorem map_label_columns {columns : List MappedColumn} {c : ClassDef} {table : Table}
    {properties : List Property}
    (h : columns = systemColumns c table ++ properties.flatMap Property.columns) :
    columns.map (·.label) = (c.origins properties).map (·.label) := by
  have hproperties : properties.flatMap (fun p => p.columns.map (·.label))
      = properties.flatMap fun p => p.origins.map (·.label) :=
    List.flatMap_congr fun p _ => p.map_label_columns
  rw [h, ClassDef.origins, List.map_append, List.map_append, map_label_systemColumns,
    List.map_flatMap, List.map_flatMap, hproperties]

/-! ## Names of columns -/

/-- No two columns are named by different names that are joined to the same text. -/
def Unambiguous (origins : List ColumnOrigin) : Prop :=
  ∀ a ∈ origins, ∀ b ∈ origins, a.viewName = b.viewName → a.spelling = b.spelling

/-- If the column is half of a navigation value, then no system property and no property with a
single column is named like it, and no other navigation property has a half of this name. -/
def ColumnOrigin.HasOwnName (origins : List ColumnOrigin) : ColumnOrigin → Prop
  | half name part => .system (name ++ part) ∉ origins ∧ .value (name ++ part) [] ∉ origins
    ∧ (part = "RelECClassId" → .half (name ++ "RelECClass") "Id" ∉ origins)
  | system _ | value .. => True

/-- No half of a navigation value is named like another column. -/
def HalvesApart (origins : List ColumnOrigin) : Prop :=
  ∀ a ∈ origins, a.HasOwnName origins

namespace ColumnOrigin

instance decidableUnambiguous (origins : List ColumnOrigin) : Decidable (Unambiguous origins) :=
  inferInstanceAs (Decidable (∀ a ∈ origins, ∀ b ∈ origins, _ → _))

instance decidableHasOwnName (origins : List ColumnOrigin) :
    (a : ColumnOrigin) → Decidable (a.HasOwnName origins)
  | half .. => inferInstanceAs (Decidable (_ ∧ _ ∧ (_ → _)))
  | system _ | value .. => inferInstanceAs (Decidable True)

instance decidableHalvesApart (origins : List ColumnOrigin) : Decidable (HalvesApart origins) :=
  inferInstanceAs (Decidable (∀ a ∈ origins, a.HasOwnName origins))

variable {origins : List ColumnOrigin} {a b : ColumnOrigin} {name part : String}

/-- The column is not half of a navigation value. -/
def isWhole : ColumnOrigin → Bool
  | system _ | value .. => true
  | half .. => false

theorem access_of_isWhole (h : a.isWhole = true) : a.access = Text.along "." a.root a.path := by
  cases a with
  | system name => rfl
  | value name path => rfl
  | half name part => cases h

/-- Access and view name of a whole column are of the same length. -/
theorem length_access_of_isWhole (h : a.isWhole = true) :
    a.access.toList.length = a.viewName.toList.length := by
  rw [access_of_isWhole h, viewName, Text.toList_along, Text.toList_along, List.length_append,
    List.length_append, List.length_flatMap, List.length_flatMap]
  simp

/-- The dot in the path of a half is not in its name. -/
theorem length_access_half (h : a.isWhole = false) :
    a.access.toList.length = a.viewName.toList.length + 1 ∧ a.spelling = [a.viewName] := by
  cases a with
  | system name => cases h
  | value name path => cases h
  | half name part =>
    have hview : (half name part).viewName = name ++ part := rfl
    have hdot : ".".toList.length = 1 := rfl
    refine ⟨?_, rfl⟩
    rw [hview, access]
    simp only [String.toList_append, List.length_append, hdot]
    omega

/-- The path and the name of a column determine the names that it is named by. -/
theorem spelling_eq_of_label (hview : a.viewName = b.viewName) (haccess : a.access = b.access) :
    a.spelling = b.spelling := by
  cases ha : a.isWhole with
  | true =>
    have hlength := length_access_of_isWhole ha
    cases hb : b.isWhole with
    | true =>
      rw [access_of_isWhole ha, access_of_isWhole hb] at haccess
      exact Text.along_inj (Text.shadows_eq_false haccess hview)
        (Text.shadows_eq_false haccess.symm hview.symm) hview
    | false =>
      have hlength' := (length_access_half hb).1
      rw [haccess, hview] at hlength
      omega
  | false =>
    obtain ⟨hlength, hspelling⟩ := length_access_half ha
    cases hb : b.isWhole with
    | true =>
      have hlength' := length_access_of_isWhole hb
      rw [haccess, hview] at hlength
      omega
    | false => rw [hspelling, (length_access_half hb).2, hview]

theorem append_relECClassId (name : String) :
    name ++ "RelECClassId" = name ++ "RelECClass" ++ "Id" := by
  rw [String.append_assoc]
  rfl

/-- Two halves with the same name and different paths. -/
theorem access_half_ne :
    (half name "RelECClassId").access ≠ (half (name ++ "RelECClass") "Id").access := by
  intro h
  simp only [access, String.append_assoc] at h
  have hrest := (String.append_right_inj _).1 h
  revert hrest
  decide

/-- Halves are apart if view names tell accesses apart. -/
theorem halvesApart_of_labels
    (h : ∀ a ∈ origins, ∀ b ∈ origins, a.viewName = b.viewName → a.access = b.access) :
    HalvesApart origins := by
  -- a column that is not half of a navigation value has a path as long as its name
  have hwhole : ∀ name part, .half name part ∈ origins → ∀ b ∈ origins, b.isWhole = true →
      b.viewName ≠ name ++ part := by
    intro name part hhalf b hb hb' hname
    have hlength := length_access_of_isWhole hb'
    have hlength' := (length_access_half (a := half name part) rfl).1
    have hview : (half name part).viewName = b.viewName := hname.symm
    rw [h _ hhalf b hb hview, hview] at hlength'
    omega
  intro a ha
  cases a with
  | system | value => trivial
  | half name part =>
    refine ⟨fun hb => hwhole name part ha _ hb rfl rfl, fun hb => hwhole name part ha _ hb rfl rfl,
      ?_⟩
    rintro rfl hb
    exact absurd (h _ ha _ hb (append_relECClassId name)) access_half_ne

/-- Halves with the same name are the same half. -/
theorem half_inj_of_halvesApart {name' part' : String} (h : HalvesApart origins)
    (ha : .half name part ∈ origins) (hb : .half name' part' ∈ origins) (hpart : part ∈ halfNames)
    (hpart' : part' ∈ halfNames) (heq : name ++ part = name' ++ part') :
    name = name' ∧ part = part' := by
  simp only [halfNames, List.mem_cons, List.not_mem_nil, or_false] at hpart hpart'
  rcases hpart with rfl | rfl <;> rcases hpart' with rfl | rfl
  · exact ⟨(String.append_left_inj _).1 heq, rfl⟩
  · obtain rfl := (String.append_left_inj _).1 (heq.trans (append_relECClassId name'))
    exact absurd ha ((h _ hb).2.2 rfl)
  · obtain rfl := (String.append_left_inj _).1 ((append_relECClassId name).symm.trans heq)
    exact absurd hb ((h _ ha).2.2 rfl)
  · exact ⟨(String.append_left_inj _).1 heq, rfl⟩

/-- A half with the same spelling as another column has the same access. -/
theorem access_half_eq (h : HalvesApart origins)
    (hparts : ∀ name part, .half name part ∈ origins → part ∈ halfNames)
    (ha : .half name part ∈ origins) (hb : b ∈ origins)
    (hspelling : (half name part).spelling = b.spelling) : (half name part).access = b.access := by
  obtain ⟨hroot, hpath⟩ := List.cons.inj hspelling
  cases b with
  | system other =>
    obtain rfl : name ++ part = other := hroot
    exact absurd hb (h _ ha).1
  | value other path =>
    obtain rfl : name ++ part = other := hroot
    obtain rfl : [] = path := hpath
    exact absurd hb (h _ ha).2.1
  | half name' part' =>
    obtain ⟨rfl, rfl⟩ := half_inj_of_halvesApart h ha hb (hparts _ _ ha) (hparts _ _ hb) hroot
    rfl

/-- Columns with the same spelling have the same access if halves are apart. -/
theorem access_eq_of_halvesApart (h : HalvesApart origins)
    (hparts : ∀ name part, .half name part ∈ origins → part ∈ halfNames) (ha : a ∈ origins)
    (hb : b ∈ origins) (hspelling : a.spelling = b.spelling) : a.access = b.access := by
  cases ha' : a.isWhole with
  | true =>
    cases hb' : b.isWhole with
    | true =>
      obtain ⟨hroot, hpath⟩ := List.cons.inj hspelling
      rw [access_of_isWhole ha', access_of_isWhole hb', hroot, hpath]
    | false =>
      cases b with
      | system | value => cases hb'
      | half => exact (access_half_eq h hparts hb ha hspelling.symm).symm
  | false =>
    cases a with
    | system | value => cases ha'
    | half => exact access_half_eq h hparts ha hb hspelling

/-- Columns with the same name have the same path exactly if what they are named by is told by the
name, and halves of navigation values have names of their own. -/
theorem labels_apart_iff
    (hparts : ∀ name part, .half name part ∈ origins → part ∈ halfNames) :
    (∀ a ∈ origins, ∀ b ∈ origins, a.viewName = b.viewName → a.access = b.access)
      ↔ Unambiguous origins ∧ HalvesApart origins := by
  constructor
  · intro h
    exact ⟨fun a ha b hb hview => spelling_eq_of_label hview (h a ha b hb hview),
      halvesApart_of_labels h⟩
  · rintro ⟨hspelling, hhalves⟩ a ha b hb hview
    exact access_eq_of_halvesApart hhalves hparts ha hb (hspelling a ha b hb hview)

/-- Columns are unambiguous if none shadows another. -/
theorem unambiguous_of_shadows (h : ∀ a ∈ origins, ∀ b ∈ origins,
    Text.shadows a.spelling b.spelling = false) : Unambiguous origins := fun a ha b hb hview =>
  Text.along_inj (h a ha b hb) (h b hb a ha) hview

end ColumnOrigin

/-! ## Columns of a class -/

/-- Columns with different paths have different names, and their values come from different places.
-/
def ClassMap.KeepsApart (map : ClassMap) : Prop :=
  ∀ a ∈ map.columns, ∀ b ∈ map.columns, a.access ≠ b.access →
    a.viewName ≠ b.viewName ∧ a.source ≠ b.source

/-- The columns of the table that hold system properties are different ones, and hold nothing else.
-/
structure StoresApart (c : ClassDef) (table : Table) (properties : List Property) : Prop where
  system : ((systemColumns c table).map (·.source)).Nodup
  property : ∀ p ∈ properties, ∀ column ∈ p.columns,
    column.source ∉ (systemColumns c table).map (·.source)

instance decidableStoresApart (c : ClassDef) (table : Table) (properties : List Property) :
    Decidable (StoresApart c table properties) :=
  decidable_of_iff (((systemColumns c table).map (·.source)).Nodup
      ∧ ∀ p ∈ properties, ∀ column ∈ p.columns,
        column.source ∉ (systemColumns c table).map (·.source))
    ⟨fun ⟨hsystem, hproperty⟩ => ⟨hsystem, hproperty⟩, fun h => ⟨h.system, h.property⟩⟩

theorem part_mem_halfNames {c : ClassDef} {properties : List Property} {name part : String}
    (h : .half name part ∈ c.origins properties) : part ∈ halfNames := by
  rcases List.mem_append.1 h with hsystem | hproperty
  · obtain ⟨_, -, heq⟩ := List.mem_map.1 hsystem
    cases heq
  · obtain ⟨p, -, hp⟩ := List.mem_flatMap.1 hproperty
    rw [Property.origins] at hp
    split at hp
    · obtain ⟨_, -, heq⟩ := List.mem_map.1 hp
      cases heq
    · obtain ⟨_, hpart, heq⟩ := List.mem_map.1 hp
      cases heq
      exact hpart

namespace ClassMap

variable {map : ClassMap} {c : ClassDef} {table : Table} {properties : List Property}

/-- Names are told apart on the columns exactly if they are told apart on what these come from. -/
theorem labels_iff
    (h : map.columns = systemColumns c table ++ properties.flatMap Property.columns) :
    (∀ a ∈ map.columns, ∀ b ∈ map.columns, a.viewName = b.viewName → a.access = b.access)
      ↔ Unambiguous (c.origins properties) ∧ HalvesApart (c.origins properties) := by
  have hforall {α : Type} (l : List α) (label : α → String × String) :
      (∀ a ∈ l, ∀ b ∈ l, (label a).2 = (label b).2 → (label a).1 = (label b).1)
        ↔ ∀ x ∈ l.map label, ∀ y ∈ l.map label, x.2 = y.2 → x.1 = y.1 := by
    simp only [List.forall_mem_map]
  have horigins := hforall (c.origins properties) (·.label)
  rw [← map_label_columns h] at horigins
  rw [← ColumnOrigin.labels_apart_iff fun _ _ => part_mem_halfNames]
  exact (hforall map.columns (·.label)).trans horigins.symm

/-- Where names are told apart, sources are exactly if those of the system properties are. -/
theorem sources_iff
    (h : map.columns = systemColumns c table ++ properties.flatMap Property.columns)
    (hnames : ∀ a ∈ map.columns, ∀ b ∈ map.columns, a.viewName = b.viewName → a.access = b.access)
    (hsystem : ∀ p ∈ properties, ∀ column ∈ p.columns, column.access ∉ systemProperties) :
    (∀ a ∈ map.columns, ∀ b ∈ map.columns, a.source = b.source → a.access = b.access)
      ↔ StoresApart c table properties := by
  have haccess : ((systemColumns c table).map (·.access)).Nodup := by
    rw [map_access_systemColumns]
    exact (List.take_sublist _ _).nodup (by decide)
  have hmem {column : MappedColumn} : column ∈ map.columns ↔ column ∈ systemColumns c table
      ∨ ∃ p ∈ properties, column ∈ p.columns := by
    rw [h, List.mem_append, List.mem_flatMap]
  constructor
  · intro hsources
    refine ⟨(List.nodup_map_iff_inj_on haccess.of_map).2 fun a ha b hb hsource => ?_,
      fun p hp column hcolumn hsource => ?_⟩
    · exact List.inj_on_of_nodup_map haccess ha hb
        (hsources a (hmem.2 (.inl ha)) b (hmem.2 (.inl hb)) hsource)
    · obtain ⟨a, ha, heq⟩ := List.mem_map.1 hsource
      have hsame := hsources a (hmem.2 (.inl ha)) column (hmem.2 (.inr ⟨p, hp, hcolumn⟩)) heq
      exact hsystem p hp column hcolumn (hsame ▸ access_mem_systemProperties ha)
  · intro hstores a ha b hb hsource
    rcases hmem.1 ha with ha' | ⟨p, hp, ha'⟩ <;> rcases hmem.1 hb with hb' | ⟨q, hq, hb'⟩
    · rw [List.inj_on_of_nodup_map hstores.system ha' hb' hsource]
    · exact absurd (List.mem_map.2 ⟨a, ha', hsource⟩) (hstores.property q hq b hb')
    · exact absurd (List.mem_map.2 ⟨b, hb', hsource.symm⟩) (hstores.property p hp a ha')
    · rw [Property.source_of_mem_columns ha', Property.source_of_mem_columns hb'] at hsource
      exact hnames a ha b hb (ColumnSource.column.inj hsource)

/-- A map keeps its columns apart exactly if where they come from does. -/
theorem keepsApart_iff
    (h : map.columns = systemColumns c table ++ properties.flatMap Property.columns)
    (hsystem : ∀ p ∈ properties, ∀ column ∈ p.columns, column.access ∉ systemProperties) :
    map.KeepsApart ↔ Unambiguous (c.origins properties) ∧ HalvesApart (c.origins properties)
      ∧ StoresApart c table properties := by
  constructor
  · intro hapart
    have hnames : ∀ a ∈ map.columns, ∀ b ∈ map.columns, a.viewName = b.viewName →
        a.access = b.access := fun a ha b hb hview =>
      by_contra fun hne => (hapart a ha b hb hne).1 hview
    have hsources : ∀ a ∈ map.columns, ∀ b ∈ map.columns, a.source = b.source →
        a.access = b.access := fun a ha b hb hsource =>
      by_contra fun hne => (hapart a ha b hb hne).2 hsource
    obtain ⟨hunambiguous, hhalves⟩ := (labels_iff h).1 hnames
    exact ⟨hunambiguous, hhalves, (sources_iff h hnames hsystem).1 hsources⟩
  · rintro ⟨hunambiguous, hhalves, hstores⟩ a ha b hb hne
    have hnames := (labels_iff h).2 ⟨hunambiguous, hhalves⟩
    have hsources := (sources_iff h hnames hsystem).2 hstores
    exact ⟨fun hview => hne (hnames a ha b hb hview), fun hsource => hne (hsources a ha b hb hsource)⟩

end ClassMap

/-- A column of a property is not that of a system property, unless the property is named like it.
-/
theorem Property.access_notMem_systemProperties {p : Property} {column : MappedColumn}
    (hname : ∀ name ∈ systemProperties, Text.sameName name p.name = false)
    (hcolumn : column ∈ p.columns) : column.access ∉ systemProperties := by
  intro hsystem
  obtain ⟨path, hpath⟩ := exists_path hcolumn
  cases path with
  | nil =>
    have hsame := hname _ hsystem
    rw [hpath] at hsame
    exact absurd (Text.sameName_refl p.name) (hsame ▸ Bool.false_ne_true)
  | cons next path =>
    refine dot_notMem_of_mem_systemProperties hsystem ?_
    rw [hpath, Text.along_cons, String.toList_append, String.toList_append]
    exact List.mem_append_left _ (List.mem_append_right _ (List.mem_singleton_self '.'))

namespace Catalog

/-- In a catalog without properties that are named like system properties, the columns of a class
are kept apart exactly if no two of them are named by different names that are joined to the same
text, no half of a navigation value is named like another column, and the table keeps the columns of
system properties apart from all others. The first is so if no name on a path begins with a name
that it parts from and an underscore. -/
theorem columns_keptApart_iff {definition : CatalogDefinition} {catalog : Catalog}
    (hcatalog : ofDefinition definition = .ok catalog)
    (hnames : ∀ c ∈ catalog.classes, ∀ p ∈ c.properties, ∀ name ∈ systemProperties,
      Text.sameName name p.name = false)
    {id : ClassId} {map : ClassMap} (hmap : catalog.classMap id = .ok map) :
    ∃ c table, catalog.classDef id = .ok c ∧ catalog.table map.table = .ok table
      ∧ (map.KeepsApart ↔ Unambiguous (c.origins (allProperties catalog.classes id))
        ∧ HalvesApart (c.origins (allProperties catalog.classes id))
        ∧ StoresApart c table (allProperties catalog.classes id))
      ∧ ((∀ a ∈ c.origins (allProperties catalog.classes id),
          ∀ b ∈ c.origins (allProperties catalog.classes id),
            Text.shadows a.spelling b.spelling = false) →
        Unambiguous (c.origins (allProperties catalog.classes id))) := by
  obtain ⟨c, table, hc, htable, hcolumns⟩ := columns_of_classMap hcatalog hmap
  refine ⟨c, table, hc, htable, ClassMap.keepsApart_iff hcolumns fun p hp column hcolumn => ?_,
    ColumnOrigin.unambiguous_of_shadows⟩
  obtain ⟨d, hd, hdeclared⟩ := exists_class_of_mem_allProperties hp
  exact p.access_notMem_systemProperties (hnames d hd p hdeclared) hcolumn

end Catalog

namespace Sample

/-- Spatial elements have a point, a navigation value and a struct with a point. -/
theorem keepsApart_spatialElements :
    ∃ map, catalog.classMap 12 = .ok map ∧ map.columns.length = 11 ∧ map.KeepsApart := by
  obtain ⟨map, hmap, hshape⟩ := Except.exists_eq_ok_of_map (x := catalog.classMap 12)
    (f := fun map => (map.columns.length, map.table)) (b := (11, "ts_Element")) (by decide +kernel)
  obtain ⟨hlength, hname⟩ := Prod.mk.inj hshape
  obtain ⟨c, table, hc, htable, hiff, hclear⟩ :=
    Catalog.columns_keptApart_iff ofDefinition_catalog (by decide +kernel) hmap
  have hc' : catalog.classDef 12
      = .ok (entity 12 "SpatialElement" [11] [⟨"Location", .struct address⟩]) := by
    rfl
  have htable' : catalog.table map.table = .ok (Table.named "ts_Element").withClassId := by
    rw [hname]
    rfl
  obtain rfl := Except.ok.inj (hc.symm.trans hc')
  obtain rfl := Except.ok.inj (htable.symm.trans htable')
  exact ⟨map, hmap, hlength,
    hiff.2 ⟨hclear (by decide +kernel), by decide +kernel, by decide +kernel⟩⟩

/-- A struct and a property whose names are joined alike, a navigation property and a property that
is named like one of its halves, and a property that is named like the column of the table for the
number of an instance. -/
def joinedNames : CatalogDefinition :=
  ⟨[.named "ts_Item"],
    [⟨entity 1 "Item" []
        [⟨"A", .struct ⟨"ts.A", [⟨"B", .primitive .string⟩]⟩⟩, ⟨"A_B", .primitive .string⟩,
          ⟨"Parent", .navigation ⟨2, .backward⟩⟩, ⟨"ParentId", .primitive .long⟩,
          ⟨"Id", .primitive .long⟩],
      some "ts_Item", true⟩,
      ⟨relationship 2 "ItemOwnsItems" [], none, true⟩]⟩

/-- In each of the three ways, two columns with different paths meet. -/
theorem not_keepsApart_joinedNames :
    Catalog.ofDefinition joinedNames = .ok (catalogOf joinedNames)
      ∧ (∀ c ∈ (catalogOf joinedNames).classes, DistinctNames c.properties)
      ∧ (∀ c ∈ (catalogOf joinedNames).classes, ∀ p ∈ c.properties, ∀ name ∈ systemProperties,
        Text.sameName name p.name = false)
      ∧ ∃ map, (catalogOf joinedNames).classMap 1 = .ok map ∧ ¬map.KeepsApart
        ∧ ∀ column ∈ [⟨"A.B", "A_B", .column "A_B"⟩, ⟨"A_B", "A_B", .column "A_B"⟩,
          ⟨"Parent.Id", "ParentId", .column "ParentId"⟩,
          ⟨"ParentId", "ParentId", .column "ParentId"⟩,
          ⟨"ECInstanceId", "ECInstanceId", .column "Id"⟩, ⟨"Id", "Id", .column "Id"⟩],
            column ∈ map.columns := by
  obtain ⟨map, hmap, hcolumns⟩ := Except.exists_eq_ok_of_map
    (x := (catalogOf joinedNames).classMap 1) (f := (·.columns))
    (b := [⟨"ECInstanceId", "ECInstanceId", .column "Id"⟩, ⟨"ECClassId", "ECClassId", .classId 1⟩,
      ⟨"A.B", "A_B", .column "A_B"⟩, ⟨"A_B", "A_B", .column "A_B"⟩,
      ⟨"Parent.Id", "ParentId", .column "ParentId"⟩,
      ⟨"Parent.RelECClassId", "ParentRelECClassId", .column "ParentRelECClassId"⟩,
      ⟨"ParentId", "ParentId", .column "ParentId"⟩, ⟨"Id", "Id", .column "Id"⟩])
    (by decide +kernel)
  refine ⟨ofDefinition_catalogOf (by decide +kernel), by decide +kernel, by decide +kernel, map, hmap,
    fun hapart => ?_, ?_⟩
  · refine (hapart ⟨"A.B", "A_B", .column "A_B"⟩ ?_ ⟨"A_B", "A_B", .column "A_B"⟩ ?_ ?_).1 rfl
    · rw [hcolumns]
      decide
    · rw [hcolumns]
      decide
    · decide
  · rw [hcolumns]
    decide

end Sample

end EntitySql
