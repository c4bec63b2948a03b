import EntitySql.Proofs.Storage.View
import EntitySql.Proofs.Suits

/-!
# The text of a view

If the names of the catalog suit a concern, the text of a view fits wherever a value fits. All its
names come from the tables and class maps of the catalog, except for the alias.
-/

namespace EntitySql

open Sql (Promise Shifts anchorMark bracketed qualified textSymbols)

variable {p : Promise} {catalog : Catalog} {table : Table} {a : Nat}

/-! ## Filters on classes -/

/-- The condition on the class of a row, behind the column. -/
def ClassFilter.test : ClassFilter → String
  | .exactly id => "=" ++ id.text
  | .within id =>
    " IN (SELECT ClassId FROM " ++ hierarchyTable ++ " WHERE BaseClassId=" ++ id.text ++ ")"

namespace ClassFilter

/-- A filter is a test behind a column. -/
theorem sql_eq (filter : ClassFilter) (column : String) :
    filter.sql column = column ++ filter.test := by
  cases filter with
  | exactly id => exact String.append_assoc
  | within id =>
    unfold sql test
    simp only [String.append_assoc]

/-- The test on a class is in order by itself. -/
theorem admits_test (filter : ClassFilter) : p.Admits 0 0 (textSymbols filter.test) := by
  cases filter with
  | exactly id => exact .text (Promise.admits_of_both (by decide)) (Promise.admits_classId id)
  | within id =>
    have hopen : p.Admits 0 1 (textSymbols (" IN (SELECT ClassId FROM " ++ hierarchyTable
        ++ " WHERE BaseClassId=")) := Promise.admits_of_both (by decide)
    exact (hopen.text (Promise.admits_classId id)).text (Promise.admits_of_both (by decide))

/-- The condition starts with a character that cannot go on with a mark. -/
theorem exists_test_eq_cons (filter : ClassFilter) :
    ∃ c rest, filter.test.toList = c :: rest ∧ c ∉ anchorMark := by
  cases filter with
  | exactly id =>
    refine ⟨'=', id.text.toList, ?_, by decide⟩
    show ("=" ++ id.text).toList = _
    rw [String.toList_append, show "=".toList = ['='] by decide]
    rfl
  | within id =>
    have hopen : (" IN (SELECT ClassId FROM " ++ hierarchyTable ++ " WHERE BaseClassId=").toList
        = ' ' :: ("IN (SELECT ClassId FROM " ++ hierarchyTable
          ++ " WHERE BaseClassId=").toList := by
      decide
    have htest : (within id).test.toList = ' ' :: (("IN (SELECT ClassId FROM " ++ hierarchyTable
        ++ " WHERE BaseClassId=").toList ++ id.text.toList ++ ")".toList) := by
      show (" IN (SELECT ClassId FROM " ++ hierarchyTable ++ " WHERE BaseClassId=" ++ id.text
        ++ ")").toList = _
      rw [String.toList_append, String.toList_append, hopen]
      rfl
    exact ⟨' ', _, htest, by decide⟩

/-- The condition behind a column that is in order. -/
theorem admits_sql {column : String} (h : p.Admits 0 0 (textSymbols column))
    (filter : ClassFilter) : p.Admits 0 0 (textSymbols (filter.sql column)) := by
  rw [sql_eq]
  exact h.text filter.admits_test

/-- The condition behind the name of a column as it is. -/
theorem admits_sql_of_bare {column : String} (h : p.Bare column) (filter : ClassFilter) :
    p.Admits 0 0 (textSymbols (filter.sql column)) := by
  obtain ⟨c, rest, htest, hc⟩ := filter.exists_test_eq_cons
  rw [sql_eq]
  exact Promise.admits_bare_append h filter.admits_test htest hc

end ClassFilter

/-- A list of classes, or a query for them, stands in parentheses. -/
theorem TypeFilter.exists_sql_eq (filter : TypeFilter) :
    ∃ x, filter.sql = "IN (" ++ x ++ ")" ∧ p.Admits 0 0 (textSymbols x) := by
  have hids (ids : List ClassId) : p.Admits 0 0 (textSymbols (idList ids)) := by
    refine Promise.admits_intercalate (Promise.admits_of_both (by decide)) fun x hx => ?_
    obtain ⟨id, -, rfl⟩ := List.mem_map.1 hx
    exact Promise.admits_classId id
  rw [sql]
  split
  · exact ⟨_, rfl, hids _⟩
  · have hopen : p.Admits 0 1 (textSymbols ("SELECT ClassId FROM " ++ hierarchyTable
        ++ " WHERE BaseClassId IN (")) := Promise.admits_of_both (by decide)
    have hclose : p.Admits 1 0 (textSymbols ")") := Promise.admits_of_both (by decide)
    have halternatives : p.Admits 0 0 (textSymbols (if filter.exactly.isEmpty then ""
        else " OR ClassId IN (" ++ idList filter.exactly ++ ")")) := by
      split
      · exact .nil
      · exact ((Promise.admits_of_both (b := 1) (by decide)).text (hids _).anywhere).text hclose
    refine ⟨_, ?_, ((hopen.text (hids filter.within).anywhere).text hclose).text halternatives⟩
    simp only [← String.append_assoc]
    rfl

/-- A filter on types is in order by itself. -/
theorem TypeFilter.admits_sql (filter : TypeFilter) : p.Admits 0 0 (textSymbols filter.sql) := by
  obtain ⟨x, hsql, hx⟩ := filter.exists_sql_eq (p := p)
  rw [hsql]
  exact ((Promise.admits_of_both (b := 1) (by decide)).text hx.anywhere).text
    (Promise.admits_of_both (by decide))

/-! ## Views -/

/-- A property of names holds of all names of an arm. -/
structure ViewArm.Named (P : String → Prop) (arm : ViewArm) : Prop where
  table : ∀ x ∈ arm.table.identifiers, P x
  names : ∀ column ∈ arm.columns, P column.name
  sources : ∀ column ∈ arm.columns, ∀ x, column.source = some (.column x) → P x
  filter : ∀ p ∈ arm.filter, P p.1

/-- The names of an arm are names of the catalog. -/
theorem Catalog.named_viewArm {P : String → Prop} {className : ClassName} {usage : PropertyUsage}
    {arms : List ViewArm} {arm : ViewArm} (hcatalog : ∀ x ∈ catalog.identifiers, P x)
    (h : catalog.viewArms className usage = .ok arms) (harm : arm ∈ arms) : arm.Named P := by
  obtain ⟨map, ids, hmap, -, harms⟩ := Catalog.viewArms_eq_ok.1 h
  have hmap := Catalog.mem_maps_of_classMap? (Catalog.classMap_eq_ok.1 hmap)
  obtain ⟨m, hm, hviewArm⟩ := Except.exists_of_mem_mapM harms harm
  obtain ⟨id, -, hid⟩ := Catalog.mem_of_mem_storageMaps hm
  obtain ⟨table, filter, htable, -, rfl⟩ := Catalog.viewArm_eq_ok.1 hviewArm
  have htable : ∀ x ∈ table.identifiers, P x := fun x hx => hcatalog x (List.mem_append_left _
    (List.mem_flatMap.2 ⟨table, Catalog.mem_tables_of_table htable, hx⟩))
  have hcolumn {m : ClassMap} (hm : m ∈ catalog.maps) {c : MappedColumn} (hc : c ∈ m.columns)
      {x : String} (hx : x ∈ c.identifiers) : P x :=
    hcatalog x (List.mem_append_right _ (List.mem_flatMap.2 ⟨m, hm, List.mem_cons_of_mem _
      (List.mem_flatMap.2 ⟨c, hc, hx⟩)⟩))
  -- columns have their names from the class map of the class, and their contents from the class map
  -- that the arm was made for
  refine ⟨htable, ?_, ?_, ?_⟩
  · intro column hmem
    obtain ⟨mapped, hmapped, rfl⟩ := List.mem_map.1 hmem
    exact hcolumn hmap (List.mem_of_mem_filter hmapped) (List.mem_cons_self ..)
  · intro column hmem x hx
    obtain ⟨mapped, hmapped, rfl⟩ := List.mem_map.1 hmem
    obtain ⟨stored, hstored, hsource⟩ := Option.map_eq_some_iff.1 hx
    refine hcolumn (Catalog.mem_maps_of_classMap? hid) (List.mem_of_find?_eq_some hstored) ?_
    rw [MappedColumn.identifiers, hsource]
    exact List.mem_cons_of_mem _ (List.mem_singleton_self x)
  · intro p hp
    obtain ⟨column, hcolumn, hp⟩ := Option.bind_eq_some_iff.1 hp
    obtain ⟨filter, -, hp⟩ := Option.bind_eq_some_iff.1 hp
    obtain rfl := Option.some.inj hp
    exact htable column (List.mem_append_right _ (Option.mem_toList.2 hcolumn))

/-- Tables are qualified with their space. -/
theorem Table.qualifiedName_eq (table : Table) :
    table.qualifiedName = qualified table.space table.name := by
  have hdot : "].[" = "]" ++ "." ++ "[" := by decide
  simp only [qualifiedName, qualified, bracketed, hdot, String.append_assoc]

/-- The columns of an arm are in order if its names are. -/
theorem ViewArm.Named.admits_column {arm : ViewArm} (h : arm.Named p.Bracketable)
    {column : ViewColumn} (hcolumn : column ∈ arm.columns) :
    p.Admits 0 0 (textSymbols (column.sql arm.table)) := by
  have hsource := h.sources column hcolumn
  rw [ViewColumn.sql]
  have hblank : p.Admits 0 0 (textSymbols " ") := Promise.admits_of_both (by decide)
  refine (Promise.Admits.text ?_ hblank).text (Promise.admits_bracketed (h.names column hcolumn))
  split
  next x heq => exact Promise.admits_qualified (h.table _ (List.mem_cons_self ..)) (hsource x heq)
  next id heq => exact Promise.admits_classId id
  next => exact Promise.admits_of_both (by decide)

/-- An arm is in order if its names are. -/
theorem ViewArm.Named.admits_sql {arm : ViewArm} (h : arm.Named p.Bracketable) :
    p.Admits 0 0 (textSymbols arm.sql) := by
  have hcolumns :
      p.Admits 0 0 (textSymbols (",".intercalate (arm.columns.map (·.sql arm.table)))) := by
    refine Promise.admits_intercalate (Promise.admits_of_both (by decide)) fun x hx => ?_
    obtain ⟨column, hcolumn, rfl⟩ := List.mem_map.1 hx
    exact h.admits_column hcolumn
  have htable : p.Admits 0 0 (textSymbols arm.table.qualifiedName) := by
    rw [Table.qualifiedName_eq]
    exact Promise.admits_qualified (h.table _ (by simp [Table.identifiers]))
      (h.table _ (by simp [Table.identifiers]))
  rw [ViewArm.sql]
  refine ((((Promise.admits_of_both (b := 0) (by decide)).text hcolumns).text
    (Promise.admits_of_both (b := 0) (by decide))).text htable).text ?_
  split
  next column filter heq =>
    have hcolumn := Promise.admits_qualified (a := 0) (h.table _ (List.mem_cons_self ..))
      (h.filter _ heq)
    exact (Promise.admits_of_both (b := 0) (by decide)).text (filter.admits_sql hcolumn)
  next => exact .nil

/-- A view is a closed text in parentheses with the alias behind it. -/
theorem Catalog.exists_viewSource_eq {className : ClassName} {usage : PropertyUsage} {x : String}
    (hcatalog : ∀ x ∈ catalog.identifiers, p.Bracketable x)
    (h : catalog.viewSource className usage = .ok x) :
    ∃ rows, p.Admits 0 0 (textSymbols rows)
      ∧ x = "(" ++ rows ++ ") " ++ bracketed className.effectiveAlias := by
  rw [Catalog.viewSource] at h
  cases hview : catalog.view className usage with
  | error error =>
    rw [hview] at h
    cases h
  | ok view =>
    rw [hview] at h
    obtain rfl := Except.ok.inj h
    refine ⟨_, Promise.admits_intercalate (Promise.admits_of_both (by decide)) fun x hx => ?_, rfl⟩
    obtain ⟨arm, harm, rfl⟩ := List.mem_map.1 hx
    exact (Catalog.named_viewArm hcatalog (Catalog.view_eq_ok.1 hview) harm).admits_sql

/-- The text of a view fits wherever a value fits. -/
theorem Catalog.admits_viewSource {className : ClassName} {usage : PropertyUsage} {x : String}
    (hcatalog : ∀ x ∈ catalog.identifiers, p.Bracketable x)
    (halias : p.Bracketable className.effectiveAlias)
    (h : catalog.viewSource className usage = .ok x) : p.Admits 0 0 (textSymbols x) := by
  obtain ⟨rows, hrows, rfl⟩ := Catalog.exists_viewSource_eq hcatalog h
  exact (((Promise.admits_of_both (b := 1) (by decide)).text hrows.anywhere).text
    (Promise.admits_of_both (by decide))).text (Promise.admits_bracketed halias)

end EntitySql
