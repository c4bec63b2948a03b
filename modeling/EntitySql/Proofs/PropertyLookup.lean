import EntitySql.Proofs.Catalog.Acyclic

/-!
# Finding properties

A property is looked up in the class first and then in its base classes one after the other. The
columns of a class are made from the list of its properties, where those of all base classes are
gathered first and the declared ones then take the places of those with their names. Both ways lead
to the same properties (`Catalog.findProperty_iff_mem`).
-/

namespace EntitySql

/-! ## Properties with different names -/

/-- No two of the properties have the same name. -/
abbrev DistinctNames (properties : List Property) : Prop :=
  properties.Pairwise fun p q => Text.sameName p.name q.name = false

variable {name : String} {p q : Property} {properties declared : List Property}

/-- Names are distinct without regard to letter case. -/
theorem distinctNames_iff :
    DistinctNames properties ↔ (properties.map (Text.folded ·.name)).Nodup := by
  simp only [DistinctNames, List.Nodup, List.pairwise_map, Text.sameName_eq_decide,
    decide_eq_false_iff_not, ne_eq]

/-- Among properties with different names, the look-up of a name finds the one that has it. -/
theorem findProperty?_eq_some (h : DistinctNames properties) :
    findProperty? name properties = some p ↔ p ∈ properties ∧ Text.sameName p.name name = true := by
  simp only [findProperty?, Text.sameName_eq_decide, decide_eq_true_eq]
  exact find?_eq_some_of_nodup (distinctNames_iff.1 h)

/-- The first list counts. -/
theorem findProperty?_append (l l' : List Property) :
    findProperty? name (l ++ l') = (findProperty? name l).or (findProperty? name l') :=
  List.find?_append

/-- With distinct names, the order does not matter. -/
theorem findProperty?_reverse (h : DistinctNames properties) :
    findProperty? name properties.reverse = findProperty? name properties := by
  have hreverse : DistinctNames properties.reverse := by
    rw [distinctNames_iff, List.map_reverse, List.nodup_reverse]
    exact distinctNames_iff.1 h
  ext p
  rw [findProperty?_eq_some hreverse, findProperty?_eq_some h, List.mem_reverse]

/-! ## Inheriting and declaring -/

/-- Inheriting keeps names distinct. -/
theorem distinctNames_inheritProperty (h : DistinctNames properties) :
    DistinctNames (inheritProperty properties p) := by
  rw [inheritProperty]
  split
  next => exact h
  next hnew =>
    refine List.pairwise_append.2 ⟨h, List.pairwise_singleton .., fun q hq r hr => ?_⟩
    rw [List.mem_singleton.1 hr]
    exact Bool.eq_false_iff.2 fun hsame => hnew (List.any_eq_true.2 ⟨q, hq, hsame⟩)

/-- Declaring keeps names distinct. -/
theorem distinctNames_declareProperty (h : DistinctNames properties) :
    DistinctNames (declareProperty properties p) := by
  refine List.pairwise_append.2 ⟨h.filter _, List.pairwise_singleton .., fun q hq r hr => ?_⟩
  rw [List.mem_singleton.1 hr]
  simpa using (List.mem_filter.1 hq).2

/-- The names that are found stay those that came first. -/
theorem findProperty?_inheritProperty :
    findProperty? name (inheritProperty properties p)
      = (findProperty? name properties).or (findProperty? name [p]) := by
  rw [inheritProperty]
  split
  next htaken =>
    obtain ⟨q, hq, hsame⟩ := List.any_eq_true.1 htaken
    by_cases hname : Text.sameName p.name name = true
    · -- a property with this name is there already
      have hfound : (findProperty? name properties).isSome :=
        List.find?_isSome.2 ⟨q, hq, (Text.sameName_congr hsame name).trans hname⟩
      rw [Option.or_of_isSome hfound]
    · rw [findProperty?, findProperty?, List.find?_singleton, if_neg hname, Option.or_none]
  next => exact findProperty?_append ..

/-- Inherited properties only count where there is none of that name. -/
theorem findProperty?_foldl_inheritProperty (l : List Property) :
    findProperty? name (l.foldl inheritProperty properties)
      = (findProperty? name properties).or (findProperty? name l) := by
  induction l generalizing properties with
  | nil => exact Option.or_none.symm
  | cons p l ih =>
    rw [List.foldl_cons, ih, findProperty?_inheritProperty, Option.or_assoc, ← findProperty?_append]
    rfl

/-- A declared property hides those with its name. -/
theorem findProperty?_declareProperty :
    findProperty? name (declareProperty properties p)
      = (findProperty? name [p]).or (findProperty? name properties) := by
  rw [declareProperty, findProperty?_append]
  simp only [findProperty?, List.find?_filter, List.find?_singleton]
  by_cases hname : Text.sameName p.name name = true
  · -- what has the name was taken out
    have hnone : properties.find? (fun q => decide ((!Text.sameName q.name p.name) = true
        ∧ Text.sameName q.name name = true)) = none := by
      refine List.find?_eq_none.2 fun q _ h => ?_
      obtain ⟨hother, hsame⟩ := of_decide_eq_true h
      rw [Text.sameName_congr hsame, Text.sameName_comm, hname] at hother
      cases hother
    rw [hnone, if_pos hname, Option.none_or, Option.some_or]
  · -- what was taken out has other names
    have hkept : (fun q : Property => decide ((!Text.sameName q.name p.name) = true
        ∧ Text.sameName q.name name = true)) = fun q => Text.sameName q.name name := by
      funext q
      rw [Bool.eq_iff_iff, decide_eq_true_eq, and_iff_right_iff_imp, Bool.not_eq_true']
      intro hsame
      rw [Text.sameName_congr hsame, Text.sameName_comm]
      exact Bool.eq_false_iff.2 hname
    rw [hkept, if_neg hname, Option.or_none, Option.none_or]

/-- Of declared properties with the same name, the last one counts. -/
theorem findProperty?_foldl_declareProperty :
    findProperty? name (declared.foldl declareProperty properties)
      = (findProperty? name declared.reverse).or (findProperty? name properties) := by
  induction declared generalizing properties with
  | nil => rfl
  | cons p declared ih =>
    rw [List.foldl_cons, ih, findProperty?_declareProperty, ← Option.or_assoc,
      ← findProperty?_append, List.reverse_cons]

/-! ## Both walks -/

namespace ClassDef

/-- The properties of a class, from those of its base classes. -/
def gather (c : ClassDef) (inherited : ClassId → List Property) : List Property :=
  c.properties.foldl declareProperty ((c.bases.flatMap inherited).foldl inheritProperty [])

/-- The property of a class that has a name, from those that its base classes have. -/
def lookUp (name : String) (c : ClassDef) (inherited : ClassId → Option Property) :
    Option Property :=
  (findProperty? name c.properties).or (c.bases.findSome? inherited)

/-- Gathered properties have distinct names. -/
theorem distinctNames_gather (c : ClassDef) (inherited : ClassId → List Property) :
    DistinctNames (c.gather inherited) := by
  refine List.foldlRecOn _ _ (List.foldlRecOn _ _ .nil ?_) ?_
  · exact fun _ h _ _ => distinctNames_inheritProperty h
  · exact fun _ h _ _ => distinctNames_declareProperty h

/-- Looking up a name among the gathered properties is looking it up on the way. -/
theorem findProperty?_gather {c : ClassDef} (h : DistinctNames c.properties)
    (inherited : ClassId → List Property) :
    findProperty? name (c.gather inherited)
      = c.lookUp name fun base => findProperty? name (inherited base) := by
  rw [gather, findProperty?_foldl_declareProperty, findProperty?_reverse h,
    findProperty?_foldl_inheritProperty, lookUp]
  exact congrArg _ List.find?_flatMap

end ClassDef

/-- The walk that gathers properties. -/
def gatherWalk : Walk (List Property) where
  outside _ := []
  step := ClassDef.gather
  step_congr c inherited inherited' h := by
    rw [ClassDef.gather, ClassDef.gather, List.flatMap_congr h]

/-- The walk that looks up a property. -/
def lookUpWalk (name : String) : Walk (Option Property) where
  outside _ := none
  step := ClassDef.lookUp name
  step_congr c inherited inherited' h := by
    rw [ClassDef.lookUp, ClassDef.lookUp, ← List.head?_filterMap, ← List.head?_filterMap,
      List.filterMap_congr h]

namespace Catalog

variable {catalog : Catalog} {id : ClassId} {bound : Nat}

/-- Gathering properties is a walk along base classes. -/
theorem propertiesWithin_eq (bound : Nat) :
    propertiesWithin catalog.classes bound = gatherWalk.within catalog bound := by
  induction bound with
  | zero => rfl
  | succ bound ih =>
    funext id
    rw [propertiesWithin, Walk.within, ih]
    cases findClass? catalog.classes id with
    | none => rfl
    | some c => rfl

/-- Looking up a property is a walk along base classes. -/
theorem findPropertyWithin_eq (bound : Nat) :
    catalog.findPropertyWithin name bound = (lookUpWalk name).within catalog bound := by
  induction bound with
  | zero => rfl
  | succ bound ih =>
    funext id
    rw [findPropertyWithin, Walk.within, ih]
    cases findClass? catalog.classes id with
    | none => rfl
    | some c => rfl

/-- All properties of a class have distinct names. -/
theorem distinctNames_propertiesWithin (bound : Nat) (id : ClassId) :
    DistinctNames (propertiesWithin catalog.classes bound id) := by
  rw [propertiesWithin_eq]
  cases bound with
  | zero => exact .nil
  | succ bound =>
    rw [Walk.within]
    cases findClass? catalog.classes id with
    | none => exact .nil
    | some c => exact c.distinctNames_gather _

/-- On walks of the same length, both ways lead to the same property. -/
theorem findProperty?_propertiesWithin (h : ∀ c ∈ catalog.classes, DistinctNames c.properties)
    (bound : Nat) (id : ClassId) :
    findProperty? name (propertiesWithin catalog.classes bound id)
      = catalog.findPropertyWithin name bound id := by
  rw [propertiesWithin_eq, findPropertyWithin_eq]
  induction bound generalizing id with
  | zero => rfl
  | succ bound ih =>
    rw [Walk.within, Walk.within]
    cases hfind : findClass? catalog.classes id with
    | none => rfl
    | some c =>
      have hdistinct := h c (List.mem_of_find?_eq_some hfind)
      refine (ClassDef.findProperty?_gather hdistinct _).trans ?_
      exact (lookUpWalk name).step_congr c _ _ fun base _ => ih base

/-- A property is found with as many steps as there are classes. -/
theorem findProperty_eq_ok :
    catalog.findProperty id name = .ok p ↔
      catalog.findPropertyWithin name catalog.classes.length id = some p := by
  constructor
  · intro h
    obtain ⟨c, -, h⟩ := Except.bind_eq_ok.1 h
    split at h
    next found hfound =>
      obtain rfl := Except.ok.inj h
      exact hfound
    next => cases h
  · intro h
    obtain ⟨c, hc⟩ : ∃ c, findClass? catalog.classes id = some c := by
      refine Option.ne_none_iff_exists'.1 fun hnone => ?_
      rw [findPropertyWithin_eq, Walk.within_of_undefined (findClass?_eq_none.1 hnone)] at h
      cases h
    exact Except.bind_eq_ok.2 ⟨c, classDef_eq_ok.2 hc, by rw [h]⟩

theorem toOption_findProperty (catalog : Catalog) (name : String) :
    (fun id => (catalog.findProperty id name).toOption)
      = catalog.findPropertyWithin name catalog.classes.length := by
  funext id
  ext p
  rw [← findProperty_eq_ok]
  cases catalog.findProperty id name with
  | error _ => simp [Except.toOption]
  | ok q => simp [Except.toOption]

/-- The columns of a class are made from its properties. -/
theorem columns_of_classMap {definition : CatalogDefinition} {map : ClassMap}
    (hcatalog : ofDefinition definition = .ok catalog) (hmap : catalog.classMap id = .ok map) :
    ∃ c table, catalog.classDef id = .ok c ∧ catalog.table map.table = .ok table
      ∧ map.columns
        = systemColumns c table ++ (allProperties catalog.classes id).flatMap Property.columns := by
  have hfound := classMap_eq_ok.1 hmap
  obtain ⟨c, hc, table, htable, hid, hcolumns⟩ :=
    (consistent_of_ofDefinition hcatalog).made map (mem_maps_of_classMap? hfound)
  rw [classId_of_classMap? hfound] at hid
  have hnodup := nodup_classes_of_ofDefinition hcatalog
  refine ⟨c, table, classDef_eq_ok.2 ((find?_eq_some_of_nodup hnodup).2 ⟨hc, hid⟩), htable, ?_⟩
  rw [hcolumns, classColumns, hid]

/-- In a catalog without cycles where no class declares two properties with the same name, the
look-up of a name in a class finds exactly the property with that name in the list from which the
columns of the class are made, and no two properties in the list have the same name. Both the list
and the look-up are the only ones that can be made from those of the base classes. -/
theorem findProperty_iff_mem {definition : CatalogDefinition}
    (hcatalog : ofDefinition definition = .ok catalog) (hacyclic : catalog.Acyclic)
    (hdistinct : ∀ c ∈ catalog.classes, DistinctNames c.properties) :
    (∀ id name p, catalog.findProperty id name = .ok p ↔
      p ∈ allProperties catalog.classes id ∧ Text.sameName p.name name = true)
    ∧ (∀ id, DistinctNames (allProperties catalog.classes id))
    ∧ (∀ id map, catalog.classMap id = .ok map → ∃ c table, catalog.classDef id = .ok c
      ∧ catalog.table map.table = .ok table ∧ map.columns
        = systemColumns c table ++ (allProperties catalog.classes id).flatMap Property.columns)
    ∧ (∀ properties, gatherWalk.Solves catalog properties ↔
      properties = allProperties catalog.classes)
    ∧ ∀ name found, (lookUpWalk name).Solves catalog found ↔
      found = fun id => (catalog.findProperty id name).toOption := by
  have hnodup := nodup_classes_of_ofDefinition hcatalog
  refine ⟨fun id name p => ?_, fun id => distinctNames_propertiesWithin _ id,
    fun id map => columns_of_classMap hcatalog, fun properties => ?_, fun name found => ?_⟩
  · rw [findProperty_eq_ok, ← findProperty?_propertiesWithin hdistinct]
    exact findProperty?_eq_some (distinctNames_propertiesWithin _ id)
  · rw [Walk.solves_iff hacyclic hnodup, ← propertiesWithin_eq]
    rfl
  · rw [Walk.solves_iff hacyclic hnodup, ← findPropertyWithin_eq, toOption_findProperty]

end Catalog

namespace Sample

/-- The bottom of a diamond has the size from the top, by way of the first base class: that the
second one declares another size does not matter. -/
theorem findProperty_diamond :
    diamondCatalog.findProperty 4 "size" = .ok ⟨"Size", .primitive .double⟩
      ∧ (∀ p ∈ allProperties diamondCatalog.classes 4,
        diamondCatalog.findProperty 4 p.name = .ok p)
      ∧ (allProperties diamondCatalog.classes 4).map (·.name)
        = ["Size", "label", "Unit", "Weight"] := by
  obtain ⟨hfind, -, -, -, -⟩ := Catalog.findProperty_iff_mem ofDefinition_diamond acyclic_diamond
    (by decide +kernel)
  have hsize : (allProperties diamondCatalog.classes 4)[0]?
      = some ⟨"Size", .primitive .double⟩ := by
    rfl
  refine ⟨(hfind ..).2 ⟨List.mem_of_getElem? hsize, by decide +kernel⟩, fun p hp => ?_,
    by decide +kernel⟩
  exact (hfind ..).2 ⟨hp, Text.sameName_refl p.name⟩

end Sample

end EntitySql
