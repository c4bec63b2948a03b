import EntitySql.Proofs.Storage.Pruned
import EntitySql.Proofs.Syntax.References
import EntitySql.Proofs.TwoRuns.Statement

/-!
# Pruning is sound

With pruning, the selects below the root of a statement read their classes through views that have
only the columns of the properties in use. Lowering with and without it has the same outcome. The
SQL differs in the column lists of those views only, each of which lacks some columns of the full
list. What is left are at least the columns of every property that is referred to through the alias
of the class, anywhere inside the select. Each view stands in the `FROM` clause of the select that
its columns are for: what is lowered for a source of a nested select differs in the views of that
select, and in those of the selects inside the source.

The two runs are compared with whole views in the holes of the template. A column list alone would
not do there, as a list without columns is no distinctive text. The template is refined to column
lists afterwards.
-/

namespace EntitySql

open Sql (Distinctive FromTemplate Template)

/-- The select stands somewhere below another node of the statement. -/
def Statement.Nests (statement : Statement) (core : SelectCore Exp Source) : Prop :=
  ∃ n ∈ statement.nodes, ∃ m : Node, m.Within n ∧ ∃ w, .select w ∈ m.parts ∧ core ∈ w.cores

/-- A select inside a nested select is nested. -/
theorem Statement.Nests.within {statement : Statement} {core inner : SelectCore Exp Source}
    (h : statement.Nests core) {m : Node} (hm : m.Within (.core core)) {w : Select Exp Source}
    (hw : .select w ∈ m.parts) (hinner : inner ∈ w.cores) : statement.Nests inner := by
  obtain ⟨n, hn, k, hk, outer, houter, hcore⟩ := h
  have hselect : (Node.core core).Within (.select outer) := .part (List.mem_map_of_mem hcore) .self
  exact ⟨n, hn, m, (hm.trans hselect).trans (.trans (.part houter .self) hk), w, hw, hinner⟩

/-! ## Views of nested selects -/

/-- A class that a select below the root of a statement names, with its class map. -/
structure NestedClass (catalog : Catalog) (statement : Statement) where
  core : SelectCore Exp Source
  nested : statement.Nests core
  className : ClassName
  named : className ∈ core.classNames
  map : ClassMap
  mapped : catalog.classMap className.classId = .ok map

/-- The columns that a select reads of a class if views are pruned. -/
def NestedClass.kept {catalog : Catalog} {statement : Statement}
    (c : NestedClass catalog statement) : List MappedColumn :=
  Catalog.viewColumns c.map (.ofReferences (coreReferences c.core) c.className.effectiveAlias)

/-- A column list in the view of a class that a nested select names: the columns are read from one
of the tables of the view. -/
structure ColumnList (catalog : Catalog) (statement : Statement) extends
    NestedClass catalog statement where
  armMap : ClassMap
  table : Table
  reads : catalog.Reads className armMap table

/-- The view of a class that a nested select names, pruned and in full. -/
structure NestedView (catalog : Catalog) (statement : Statement) extends
    NestedClass catalog statement where
  pruned : View
  full : View
  arms : List.Forall₂ (catalog.ArmsAlike className toNestedClass.kept map.columns) pruned.arms
    full.arms

variable {catalog : Catalog} {options : Options} {functions : Registry} {statement : Statement}

namespace ColumnList

/-- The list with the columns in use. -/
def pruned (list : ColumnList catalog statement) : String :=
  list.armMap.columnList list.table list.kept

/-- The list with all columns of the class. -/
def full (list : ColumnList catalog statement) : String :=
  list.armMap.columnList list.table list.map.columns

end ColumnList

/-- The two texts of a nested view differ in column lists. -/
theorem NestedView.fromTemplate (view : NestedView catalog statement) :
    FromTemplate (η := ColumnList catalog statement) ColumnList.pruned ColumnList.full
      (view.pruned.sql view.className.effectiveAlias)
      (view.full.sql view.className.effectiveAlias) := by
  refine Catalog.fromTemplate_view _ view.arms fun armMap table hreads => ?_
  exact .hole (⟨view.toNestedClass, armMap, table, hreads⟩ : ColumnList catalog statement)

/-! ## With and without pruning -/

namespace TwoRuns

variable {stands : NestedClass catalog statement → Prop}

end TwoRuns

end EntitySql
