import EntitySql.Proofs.Catalog.Definition
import EntitySql.Proofs.Lists
import EntitySql.Proofs.Storage.ViewReading
import EntitySql.Sample

/-!
# The rows of a view

In a database that agrees with the catalog, the view of a class reads exactly the rows of the class,
and of its subclasses if they are included. Each row is read once, and shows its own class as
`ECClassId`. The same is so of the text of the view, as a database reads it, if the names of the
catalog may stand in brackets.

An arm has no condition if all rows of its table are wanted. Whether they are is told from the
classes that the catalog stores there, so that this is where the rows of other classes could slip in
(`Catalog.selects_iff`).
-/

namespace EntitySql

namespace Catalog

/-- The column with the class of a row in the table of this name, if it has one. -/
def classColumn? (catalog : Catalog) (name : String) : Option String :=
  (catalog.table name).toOption.bind (·.classIdColumn)

/-- Where two classes are stored in one table, the table has a column for the class. -/
def TellsApart (catalog : Catalog) : Prop :=
  ∀ m ∈ catalog.maps, ∀ m' ∈ catalog.maps, m.table = m'.table → m.classId ≠ m'.classId →
    catalog.classColumn? m.table ≠ none

instance (catalog : Catalog) : Decidable catalog.TellsApart :=
  inferInstanceAs (Decidable (∀ m ∈ catalog.maps, ∀ m' ∈ catalog.maps, m.table = m'.table →
    m.classId ≠ m'.classId → catalog.classColumn? m.table ≠ none))

/-- A database holds what the catalog says: rows only of classes that are stored in their table,
with the class in the column for it, and all classes with their base classes. -/
structure Describes (catalog : Catalog) (db : Database) : Prop where
  stored : ∀ row ∈ db.rows, ∃ map ∈ catalog.maps, map.classId = row.classId ∧ map.table = row.table
  marked : ∀ row ∈ db.rows, ∀ column ∈ catalog.classColumn? row.table,
    row.cell column = row.classId.cell
  hierarchy : ∀ id base, (id, base) ∈ db.hierarchy ↔
    id ∈ catalog.classes.map (·.id) ∧ catalog.DerivesFrom id base

variable {catalog : Catalog} {db : Database} {row : Row} {className : ClassName} {map : ClassMap}
  {table : Table} {usage : PropertyUsage}

/-! ## Which classes a table stores -/

/-- The classes in a table are those whose maps name it. -/
theorem mem_classesInTable {id : ClassId} {name : String} :
    id ∈ catalog.classesInTable name ↔
      ∃ map ∈ catalog.maps, map.table = name ∧ map.classId = id := by
  simp [classesInTable, catalog.get_tableClasses, and_assoc]

/-- A table that is not shared has at most one class. -/
theorem eq_of_not_isSharedTable {id id' : ClassId} {name : String}
    (h : catalog.isSharedTable name = false) (hid : id ∈ catalog.classesInTable name)
    (hid' : id' ∈ catalog.classesInTable name) : id = id' := by
  have hlength : (catalog.classesInTable name).length ≤ 1 := by
    simpa [isSharedTable] using h
  match hclasses : catalog.classesInTable name with
  | [] => rw [hclasses] at hid; cases hid
  | [x] =>
    rw [hclasses, List.mem_singleton] at hid hid'
    rw [hid, hid']
  | _ :: _ :: _ => rw [hclasses] at hlength; simp at hlength

/-- The column with the classes of rows is that of the table. -/
theorem classColumn?_of_table {name : String} (h : catalog.table name = .ok table) :
    catalog.classColumn? name = table.classIdColumn := by
  rw [classColumn?, h]
  rfl

/-- In a table without a column for the class, all rows belong to the only class stored there. -/
theorem TellsApart.classId_eq (hapart : catalog.TellsApart) (hdb : catalog.Describes db)
    (hmap : map ∈ catalog.maps) (htable : catalog.table map.table = .ok table)
    (hcolumn : table.classIdColumn = none) (hrow : row ∈ db.rows) (hname : row.table = map.table) :
    map.classId = row.classId := by
  obtain ⟨map', hmap', hclass, hstored⟩ := hdb.stored row hrow
  by_contra hne
  refine hapart map hmap map' hmap' (hstored.trans hname).symm (hclass ▸ hne) ?_
  rw [classColumn?_of_table htable, hcolumn]

/-- The cell with the class of a row holds its class. -/
theorem Describes.cell_eq (hdb : catalog.Describes db) (hrow : row ∈ db.rows)
    (htable : catalog.table row.table = .ok table) {column : String}
    (hcolumn : table.classIdColumn = some column) : row.cell column = row.classId.cell :=
  hdb.marked row hrow column (by rw [classColumn?_of_table htable, hcolumn]; rfl)

/-! ## Conditions on the class -/

/-- A filter on a class and its subclasses accepts exactly those that derive from it. -/
theorem accepts_within (hdb : catalog.Describes db) {id base : ClassId}
    (hid : id ∈ catalog.classes.map (·.id)) :
    (ClassFilter.within base).accepts db id.cell = true ↔ catalog.DerivesFrom id base := by
  rw [ClassFilter.accepts, List.any_eq_true]
  constructor
  · rintro ⟨⟨other, base'⟩, hmem, h⟩
    simp only [Bool.and_eq_true, decide_eq_true_eq, ClassId.cell_inj] at h
    obtain ⟨rfl, rfl⟩ := h
    exact ((hdb.hierarchy _ _).1 hmem).2
  · intro h
    exact ⟨(id, base), (hdb.hierarchy _ _).2 ⟨hid, h⟩, by simp⟩

/-- The condition on the class passes exactly the wanted ones of the classes that are stored in the
table. -/
theorem accepts_classFilter (hcatalog : catalog.Consistent) (hdb : catalog.Describes db)
    {filter : Option ClassFilter} (hcolumn : table.classIdColumn ≠ none)
    (hfilter : catalog.classFilter table className.classId className.polymorphic = .ok filter)
    (hself : className.polymorphic = false → className.classId ∈ catalog.classesInTable table.name)
    {id : ClassId} (hid : id ∈ catalog.classesInTable table.name) :
    (∀ f ∈ filter, f.accepts db id.cell = true) ↔ catalog.Covers className id := by
  obtain ⟨map, hmap, -, rfl⟩ := mem_classesInTable.1 hid
  rw [classFilter, if_neg (by simpa using hcolumn)] at hfilter
  rw [Covers]
  cases hpolymorphic : className.polymorphic with
  | false =>
    rw [hpolymorphic] at hfilter
    obtain rfl := Except.ok.inj hfilter
    -- a table of one class needs no condition: the class is the one that is read
    cases hshared : catalog.isSharedTable table.name with
    | true => simp [ClassFilter.accepts, ClassId.cell_inj]
    | false => simpa using eq_of_not_isSharedTable hshared hid (hself hpolymorphic)
  | true =>
    rw [hpolymorphic] at hfilter
    obtain ⟨partition, hpartition, h⟩ := Except.bind_eq_ok.1 hfilter
    obtain rfl := Except.ok.inj h
    obtain ⟨ids, hids, h⟩ := Except.bind_eq_ok.1 hpartition
    obtain rfl := Except.ok.inj h
    -- nor does a table in which all classes are wanted
    cases hother : (catalog.classesInTable table.name).any (· ∉ ids) with
    | true => simpa [hother] using accepts_within hdb (hcatalog.defined hmap)
    | false =>
      have hmem : map.classId ∈ ids := by simpa using List.any_eq_false.1 hother _ hid
      simpa [hother] using (mem_of_classAndDerived hids).1 hmem

/-! ## The rows of an arm -/

/-- An arm reads exactly the wanted ones of the rows of its table. -/
theorem selects_iff (hcatalog : catalog.Consistent) (hapart : catalog.TellsApart)
    (hdb : catalog.Describes db) {ids : List ClassId} {columns : List MappedColumn} {arm : ViewArm}
    (hids : catalog.classesOf className = .ok ids) (hmap : map ∈ catalog.storageMaps ids)
    (harm : catalog.viewArm className columns map = .ok arm) (hrow : row ∈ db.rows) :
    arm.selects db row = true ↔ row.table = map.table ∧ catalog.Covers className row.classId := by
  obtain ⟨table, filter, htable, hfilter, rfl⟩ := viewArm_eq_ok.1 harm
  have hname : table.name = map.table := name_of_table htable
  obtain ⟨id, hid, hfind⟩ := mem_of_mem_storageMaps hmap
  obtain rfl := classId_of_classMap? hfind
  have hmem : map ∈ catalog.maps := mem_maps_of_classMap? hfind
  obtain ⟨map', hmap', hclass, hstored⟩ := hdb.stored row hrow
  rw [ViewArm.selects, Bool.and_eq_true, decide_eq_true_eq, hname]
  refine and_congr_right fun htableName => ?_
  cases hcolumn : table.classIdColumn with
  | none =>
    -- the table has rows of one class only, and the arm is there because this class is wanted
    have hcovers := (mem_of_classesOf hids).1 hid
    rw [hapart.classId_eq hdb hmem htable hcolumn hrow htableName] at hcovers
    simpa using hcovers
  | some column =>
    have hcell : row.cell column = row.classId.cell :=
      hdb.cell_eq hrow (htableName ▸ htable) hcolumn
    have hstoredHere : row.classId ∈ catalog.classesInTable table.name :=
      mem_classesInTable.2 ⟨map', hmap', by rw [hname, hstored, htableName], hclass⟩
    have hself (hpolymorphic : className.polymorphic = false) :
        className.classId ∈ catalog.classesInTable table.name := by
      have hcovers := (mem_of_classesOf hids).1 hid
      rw [Covers, hpolymorphic] at hcovers
      exact mem_classesInTable.2 ⟨map, hmem, hname.symm, hcovers⟩
    rw [← accepts_classFilter hcatalog hdb (by simp [hcolumn]) hfilter hself hstoredHere]
    cases filter with
    | none => simp
    | some f => simp [hcell]

/-! ## The column with the class -/

/-- Where the class of a row is found: in the column for it, or else it is the class of the map. -/
def classSource (id : ClassId) (table : Table) : ColumnSource :=
  match table.classIdColumn with
  | some column => .column column
  | none => .classId id

/-- The first columns of a class are its number and its class. -/
theorem classColumns_eq (classes : List ClassDef) (c : ClassDef) (table : Table) :
    ∃ rest, classColumns classes c table
      = ⟨"ECInstanceId", "ECInstanceId", .column table.idColumn⟩
        :: ⟨"ECClassId", "ECClassId", classSource c.id table⟩ :: rest := by
  rw [classColumns, systemColumns]
  split
  · exact ⟨_, rfl⟩
  · exact ⟨_, rfl⟩

/-- The column with the class of a row is filled as the table says. -/
theorem Consistent.source_classId (h : catalog.Consistent) (hmap : map ∈ catalog.maps)
    (htable : catalog.table map.table = .ok table) :
    (map.column? "ECClassId").map (·.source) = some (classSource map.classId table) := by
  obtain ⟨c, -, table', htable', hid, hcolumns⟩ := h.made map hmap
  obtain rfl := Except.ok.inj (htable.symm.trans htable')
  obtain ⟨rest, hrest⟩ := classColumns_eq catalog.classes c table
  have hother : Text.sameName "ECInstanceId" "ECClassId" = false := by decide
  have hsame : Text.sameName "ECClassId" "ECClassId" = true := by decide
  rw [ClassMap.column?, hcolumns, hrest, List.find?_cons_of_neg (by simp [hother]),
    List.find?_cons_of_pos (by simpa using hsame), ← hid]
  rfl

/-- The second column of a view is the one with the class of a row. -/
theorem Consistent.viewColumns_eq (h : catalog.Consistent) (hmap : map ∈ catalog.maps)
    (usage : PropertyUsage) :
    ∃ first second rest, viewColumns map usage = first :: second :: rest
      ∧ first.viewName ≠ "ECClassId" ∧ second.viewName = "ECClassId"
      ∧ second.access = "ECClassId" := by
  obtain ⟨c, -, table, -, -, hcolumns⟩ := h.made map hmap
  obtain ⟨rest, hrest⟩ := classColumns_eq catalog.classes c table
  have hinstance : isSystemProperty "ECInstanceId" = true := by decide
  have hclass : isSystemProperty "ECClassId" = true := by decide
  rw [viewColumns, hcolumns, hrest, List.filter_cons_of_pos (by simp [hinstance]),
    List.filter_cons_of_pos (by simp [hclass])]
  exact ⟨_, _, _, rfl, show "ECInstanceId" ≠ "ECClassId" by decide, rfl, rfl⟩

/-- Every row that an arm reads shows its own class. -/
theorem cell?_classId (hcatalog : catalog.Consistent) (hapart : catalog.TellsApart)
    (hdb : catalog.Describes db) {root : ClassMap} (hroot : root ∈ catalog.maps)
    (hmap : map ∈ catalog.maps) {arm : ViewArm}
    (harm : catalog.viewArm className (viewColumns root usage) map = .ok arm)
    (hrow : row ∈ db.rows) (htableName : row.table = map.table) :
    arm.cell? "ECClassId" row = some row.classId.cell := by
  obtain ⟨table, filter, htable, -, rfl⟩ := viewArm_eq_ok.1 harm
  obtain ⟨first, second, rest, hcolumns, hfirst, hsecond, haccess⟩ :=
    hcatalog.viewColumns_eq hroot usage
  rw [ViewArm.cell?, hcolumns, List.map_cons, List.map_cons,
    List.find?_cons_of_neg (by simpa using hfirst), List.find?_cons_of_pos (by simpa using hsecond),
    haccess, hcatalog.source_classId hmap htable, Option.map_some, ViewColumn.cell]
  cases hcolumn : table.classIdColumn with
  | some column =>
    rw [classSource, hcolumn]
    exact congrArg some (hdb.cell_eq hrow (htableName ▸ htable) hcolumn)
  | none =>
    rw [classSource, hcolumn, hapart.classId_eq hdb hmap htable hcolumn hrow htableName]

/-! ## The rows of a view -/

/-- A class that is stored has a view. -/
theorem Consistent.exists_view (h : catalog.Consistent)
    (hmap : catalog.classMap? className.classId = some map) (usage : PropertyUsage) :
    ∃ view, catalog.view className usage = .ok view := by
  obtain ⟨hierarchy, hhierarchy⟩ := exists_classAndDerived (h.defined (mem_maps_of_classMap? hmap))
  rw [classId_of_classMap? hmap] at hhierarchy
  obtain ⟨ids, hids⟩ : ∃ ids, catalog.classesOf className = .ok ids := by
    rw [classesOf]
    split
    · exact ⟨hierarchy, hhierarchy⟩
    · exact ⟨_, rfl⟩
  have harms : ∀ m ∈ catalog.storageMaps ids,
      ∃ arm, catalog.viewArm className (viewColumns map usage) m = .ok arm := by
    intro m hm
    obtain ⟨_, -, hfind⟩ := mem_of_mem_storageMaps hm
    obtain ⟨_, -, table, htable, -⟩ := h.made m (mem_maps_of_classMap? hfind)
    obtain ⟨filter, hfilter⟩ : ∃ filter,
        catalog.classFilter table className.classId className.polymorphic = .ok filter := by
      rw [classFilter]
      split
      · exact ⟨_, rfl⟩
      · split
        · exact ⟨_, rfl⟩
        · exact ⟨_, Except.bind_eq_ok.2 ⟨_, Except.bind_eq_ok.2 ⟨_, hhierarchy, rfl⟩, rfl⟩⟩
    exact ⟨_, viewArm_eq_ok.2 ⟨table, filter, htable, hfilter, rfl⟩⟩
  obtain ⟨arms, harms⟩ := Except.exists_mapM_eq_ok.2 harms
  exact ⟨⟨arms⟩, view_eq_ok.2 (viewArms_eq_ok.2 ⟨map, ids, classMap_eq_ok.2 hmap, hids, harms⟩)⟩

/-- No row is read by two arms, since no two have the same table. -/
theorem pairwise_selects {ids : List ClassId} {columns : List MappedColumn} {arms : List ViewArm}
    (harms : (catalog.storageMaps ids).mapM (catalog.viewArm className columns) = .ok arms)
    (db : Database) : arms.Pairwise fun a b =>
      ∀ row ∈ db.rows, a.selects db row = true → b.selects db row = false := by
  have htables : arms.map (·.table.name) = (catalog.storageMaps ids).map (·.table) := by
    refine Except.map_eq_of_mapM harms fun map arm harm => ?_
    obtain ⟨table, filter, htable, -, rfl⟩ := viewArm_eq_ok.1 harm
    exact name_of_table htable
  have hnodup := nodup_storageMaps catalog ids
  rw [← htables, List.Nodup, List.pairwise_map] at hnodup
  refine hnodup.imp fun hne row _ ha => Bool.eq_false_iff.2 fun hb => hne ?_
  rw [ViewArm.selects, Bool.and_eq_true, decide_eq_true_eq] at ha hb
  exact ha.1.symm.trans hb.1

/-- A row is read by an arm exactly if it is wanted. -/
theorem any_selects_iff (hcatalog : catalog.Consistent) (hapart : catalog.TellsApart)
    (hdb : catalog.Describes db) {ids : List ClassId} {columns : List MappedColumn}
    {arms : List ViewArm} (hids : catalog.classesOf className = .ok ids)
    (harms : (catalog.storageMaps ids).mapM (catalog.viewArm className columns) = .ok arms)
    (hrow : row ∈ db.rows) :
    arms.any (·.selects db row) = true ↔ catalog.Covers className row.classId := by
  rw [List.any_eq_true]
  constructor
  · rintro ⟨arm, harm, hselects⟩
    obtain ⟨map, hmap, harm⟩ := Except.exists_of_mem_mapM harms harm
    exact ((selects_iff hcatalog hapart hdb hids hmap harm hrow).1 hselects).2
  · intro hcovers
    obtain ⟨stored, hstored, hclass, htable⟩ := hdb.stored row hrow
    have hfind := hcatalog.classMap?_of_mem hstored
    rw [hclass] at hfind
    -- the arm for the table of the row may have been made for another class in it
    obtain ⟨map, hmap, hsame⟩ := exists_mem_storageMaps ((mem_of_classesOf hids).2 hcovers) hfind
    obtain ⟨arm, harm, hviewArm⟩ := Except.exists_mem_of_mapM harms hmap
    refine ⟨arm, harm, (selects_iff hcatalog hapart hdb hids hmap hviewArm hrow).2 ⟨?_, hcovers⟩⟩
    rw [hsame, htable]

/-- The text of a view is read as the view, if the names of the catalog may stand in brackets. -/
theorem Consistent.read?_viewSource (h : catalog.Consistent) (hplain : catalog.Plain)
    (halias : Sql.Bracketable className.effectiveAlias) {view : View}
    (hview : catalog.view className usage = .ok view) :
    ∃ text, catalog.viewSource className usage = .ok text
      ∧ ViewText.read? text = some (view.said className.effectiveAlias) := by
  have harms := view_eq_ok.1 hview
  obtain ⟨root, ids, hroot, -, hmade⟩ := viewArms_eq_ok.1 harms
  obtain ⟨first, second, rest, hcolumns, -, -, -⟩ :=
    h.viewColumns_eq (mem_maps_of_classMap? (classMap_eq_ok.1 hroot)) usage
  have hsource : catalog.viewSource className usage
      = .ok (view.sql className.effectiveAlias) := by
    rw [viewSource, hview]
    rfl
  refine ⟨_, hsource, View.read?_sql (ne_nil_of_viewArms harms) (fun arm harm => ?_) halias⟩
  refine ⟨Catalog.named_viewArm hplain harms harm, ?_⟩
  obtain ⟨map, -, harm⟩ := Except.exists_of_mem_mapM hmade harm
  obtain ⟨table, filter, -, -, rfl⟩ := viewArm_eq_ok.1 harm
  simp [hcolumns]

open Classical in
/-- The view of a class reads exactly the rows that the class name stands for, each once, and shows
the class of each row. The text of the view is read as a source with the same rows. -/
theorem perm_rows_view {definition : CatalogDefinition} {className : ClassName}
    {usage : PropertyUsage} (hdefinition : ofDefinition definition = .ok catalog)
    (hapart : catalog.TellsApart) (hdb : catalog.Describes db)
    (hmapped : catalog.classMap? className.classId ≠ none) :
    ∃ view, catalog.view className usage = .ok view
      ∧ (view.rows db).Perm (db.rows.filter fun row => catalog.Covers className row.classId)
      ∧ (∀ arm ∈ view.arms, ∀ row ∈ arm.rows db,
        arm.cell? "ECClassId" row = some row.classId.cell)
      ∧ (catalog.Plain → Sql.Bracketable className.effectiveAlias → ∃ text source,
        catalog.viewSource className usage = .ok text ∧ ViewText.read? text = some source
          ∧ source.aliasName = className.effectiveAlias ∧ source.rows db = view.rows db
          ∧ ∀ arm ∈ source.arms, ∀ row ∈ arm.rows db,
            arm.cell? "ECClassId" row = some row.classId.cell) := by
  have hcatalog := consistent_of_ofDefinition hdefinition
  obtain ⟨map, hmap⟩ := Option.ne_none_iff_exists'.1 hmapped
  obtain ⟨view, hview⟩ := hcatalog.exists_view hmap usage
  obtain ⟨root, ids, hroot, hids, harms⟩ := viewArms_eq_ok.1 (view_eq_ok.1 hview)
  have hclass : ∀ arm ∈ view.arms, ∀ row ∈ arm.rows db,
      arm.cell? "ECClassId" row = some row.classId.cell := by
    intro arm harm row hrow
    obtain ⟨hmem, hselects⟩ := List.mem_filter.1 hrow
    obtain ⟨map, hmap, harm⟩ := Except.exists_of_mem_mapM harms harm
    obtain ⟨_, -, hfind⟩ := mem_of_mem_storageMaps hmap
    have htable := ((selects_iff hcatalog hapart hdb hids hmap harm hmem).1 hselects).1
    exact cell?_classId hcatalog hapart hdb (mem_maps_of_classMap? (classMap_eq_ok.1 hroot))
      (mem_maps_of_classMap? hfind) harm hmem htable
  refine ⟨view, hview, ?_, hclass, ?_⟩
  · have hperm := perm_flatMap_filter (pairwise_selects harms db)
    refine hperm.trans (.of_eq (List.filter_congr fun row hrow => ?_))
    rw [Bool.eq_iff_iff, decide_eq_true_eq]
    exact any_selects_iff hcatalog hapart hdb hids harms hrow
  · intro hplain halias
    obtain ⟨text, htext, hread⟩ := hcatalog.read?_viewSource hplain halias hview
    refine ⟨text, _, htext, hread, rfl, view.rows_said _ db, fun said hsaid row hrow => ?_⟩
    obtain ⟨arm, harm, rfl⟩ := List.mem_map.1 hsaid
    rw [arm.cell?_said]
    exact hclass arm harm row (arm.rows_said db ▸ hrow)

end Catalog

namespace Sample

/-- A row of the table of elements, with its class in the column for it. -/
def elementRow (id : ClassId) : Row :=
  ⟨"ts_Element", id, fun column => if column = "ECClassId" then id.cell else .null⟩

/-- Elements of all classes that share a table, a sensor, and a widget. -/
def database : Database where
  rows := [elementRow 10, elementRow 11, elementRow 12, elementRow 12,
    ⟨"ts_Sensor", 13, fun _ => .null⟩, ⟨"ts_Widget", 20, fun _ => .null⟩]
  hierarchy := catalog.hierarchyPairs

theorem ofDefinition_catalog : Catalog.ofDefinition ⟨tables, classes⟩ = .ok catalog := by
  obtain ⟨made, hmade⟩ := Except.exists_eq_ok
    (x := Catalog.ofDefinition ⟨tables, classes⟩) (by decide +kernel)
  rw [catalog, hmade]

/-- The rows of the sample are what the catalog describes. -/
theorem describes_database : catalog.Describes database := by
  refine ⟨by decide +kernel, by decide +kernel, fun id base => ?_⟩
  exact (Catalog.consistent_of_ofDefinition ofDefinition_catalog).mem_hierarchyPairs

/-- The physical elements with their subclasses. -/
def physicalElements : ClassName :=
  ⟨11, "ts", "PhysicalElement", none, true⟩

open Classical in
/-- The view of the physical elements, which takes some of the rows of one table and all of
another. -/
theorem perm_rows_physicalElements : ∃ view text source,
    catalog.view physicalElements .all = .ok view
      ∧ (view.rows database).Perm
        (database.rows.filter fun row => catalog.Covers physicalElements row.classId)
      ∧ (∀ arm ∈ view.arms, ∀ row ∈ arm.rows database,
        arm.cell? "ECClassId" row = some row.classId.cell)
      ∧ catalog.viewSource physicalElements .all = .ok text
      ∧ ViewText.read? text = some source ∧ source.aliasName = "PhysicalElement"
      ∧ source.rows database = view.rows database := by
  have hmapped : catalog.classMap? physicalElements.classId ≠ none := by decide +kernel
  obtain ⟨view, hview, hperm, hclass, hread⟩ := Catalog.perm_rows_view ofDefinition_catalog
    (by decide +kernel) describes_database hmapped
  obtain ⟨text, source, htext, hsource, halias, hrows, -⟩ :=
    hread (by decide +kernel) (by decide +kernel)
  exact ⟨view, text, source, hview, hperm, hclass, htext, hsource, halias, hrows⟩

end Sample

end EntitySql
