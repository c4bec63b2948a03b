import EntitySql.Lowering.Statement
import EntitySql.Proofs.Comments.Spelling
import EntitySql.Proofs.Syntax.Node

/-!
# The names in a statement and in a catalog

What a statement, a catalog and a registry contribute to SQL are names and texts, and these decide
whether the SQL is well formed. A `Vocabulary` lists what a node contributes, by the way in which it
is written: names in brackets, bare words, and quoted texts. The catalog contributes names in
brackets and the registry bare words. All are `Plain` if they consist of characters that may stand
where they are written, and `Contained` if they begin no comment there.
-/

namespace EntitySql

open Sql (Bare Bracketable Enclosable Unmarked Wordlike)

/-- The names and texts that a part of a statement contributes to the SQL. -/
structure Vocabulary where
  /-- The names that are written in brackets. -/
  identifiers : List String := []
  /-- The names that are written as they are. -/
  words : List String := []
  /-- The texts that are written in quotes. -/
  texts : List String := []

/-- All names and texts may stand where they are written. -/
structure Vocabulary.Plain (v : Vocabulary) : Prop where
  identifiers : ∀ x ∈ v.identifiers, Bracketable x
  words : ∀ x ∈ v.words, Bare x
  texts : ∀ x ∈ v.texts, Unmarked x

instance (v : Vocabulary) : Decidable v.Plain :=
  decidable_of_iff ((∀ x ∈ v.identifiers, Bracketable x) ∧ (∀ x ∈ v.words, Bare x)
    ∧ ∀ x ∈ v.texts, Unmarked x)
    ⟨fun ⟨hi, hw, ht⟩ => ⟨hi, hw, ht⟩, fun h => ⟨h.identifiers, h.words, h.texts⟩⟩

/-! ## Statements -/

/-- The texts of a constant. -/
def LiteralValue.texts : LiteralValue → List String
  | .string text | .date text | .timestamp text => [text]
  | .null | .boolean _ | .integer _ | .double _ => []

/-- The names in a reference to a property that are written in brackets. The path is not among
them: it leads to columns of the catalog. -/
def PropertyName.identifiers (p : PropertyName) : List String :=
  p.aliasName ::
    match p.target with
    | .derived columns => columns
    | .ofClass _ => []

/-- The names in the window of a window function. -/
def WindowOver.identifiers {α : Type} : WindowOver α → List String
  | .spec window => window.base.toList
  | .name x => [x]

/-- What an expression contributes by itself. -/
def Exp.vocabulary : Exp → Vocabulary
  | .literal l => { texts := l.value.texts }
  | .enumerator _ _ value => { texts := value.texts }
  | .parameter p => { words := p.name.toList }
  | .property p => { identifiers := p.identifiers }
  | .call c => { words := [c.name] }
  | .window c _ overWindow => { identifiers := overWindow.identifiers, words := [c.name] }
  | .navigation value => { identifiers := [value.aliasName] }
  | .extractProperty aliasName access _ => { identifiers := [aliasName], texts := [access] }
  | .extractInstance aliasName => { identifiers := [aliasName] }
  | _ => {}

/-- What a source contributes by itself. -/
def Source.vocabulary : Source → Vocabulary
  | .ofClass c => { identifiers := [c.effectiveAlias] }
  | .join _ _ (.relationship link _) => { identifiers := [link.effectiveAlias] }
  | .join .. => {}
  | .subquery _ aliasName => { identifiers := [aliasName] }
  | .function c aliasName => { identifiers := aliasName.toList, words := [c.name] }
  | .commonTable name aliasName => { identifiers := name :: aliasName.toList }

/-- The names that a select gives to an item. -/
def SelectItem.identifiers {α : Type} (item : SelectItem α) : List String :=
  item.aliasName.toList ++ item.nestedAlias.toList

/-- The names in the definition of a window. -/
def WindowDefinition.identifiers {α : Type} (definition : WindowDefinition α) : List String :=
  definition.name :: definition.window.base.toList

/-- The names that a single select gives or uses by itself. -/
def SelectCore.identifiers {α β : Type} (core : SelectCore α β) : List String :=
  core.items.flatMap (·.identifiers) ++ core.windows.flatMap (·.identifiers)

/-- What a node contributes by itself. -/
def Node.vocabulary : Node → Vocabulary
  | .exp e => e.vocabulary
  | .source s => s.vocabulary
  | .core c => { identifiers := c.identifiers }
  | .select _ => {}

/-- A node and all that stands below it have plain names. -/
def Node.Plain (n : Node) : Prop :=
  ∀ m : Node, m.Within n → m.vocabulary.Plain

/-- The names of a plain node are plain. -/
theorem Node.Plain.vocabulary {n : Node} (h : n.Plain) : n.vocabulary.Plain :=
  h n .self

/-- The parts of a plain node are plain. -/
theorem Node.Plain.part {m n : Node} (h : n.Plain) (hm : m ∈ n.parts) : m.Plain :=
  fun k hk => h k (.part hm hk)

/-- A node has plain names if it does by itself and its parts do. -/
theorem Node.plain_iff {n : Node} :
    n.Plain ↔ n.vocabulary.Plain ∧ ∀ m ∈ n.parts, m.Plain :=
  forall_within_iff

namespace Statement

/-- The selects and expressions of a statement. -/
def nodes : Statement → List Node
  | .select s => [.select s]
  | .withSelect s => s.tables.map (.select ·.select) ++ [.select s.select]
  | .insert s => s.values.map .exp
  | .update s => s.assignments.map (.exp ·.value) ++ s.condition.toList.map .exp
  | .delete s => s.condition.toList.map .exp

/-- The names in a statement that are outside of its selects and expressions. -/
def identifiers : Statement → List String
  | .withSelect s => s.tables.flatMap fun table => table.name :: table.columns
  | .insert s => s.properties.flatMap (·.identifiers)
  | .update s => s.assignments.flatMap (·.property.identifiers)
  | .select _ | .delete _ => []

/-- A statement has plain names. -/
structure Plain (statement : Statement) : Prop where
  identifiers : ∀ x ∈ statement.identifiers, Bracketable x
  nodes : ∀ n ∈ statement.nodes, n.Plain

end Statement

/-! ## Catalogs and registries -/

/-- The names of a table and of its columns for the number and the class of an instance. -/
def Table.identifiers (table : Table) : List String :=
  [table.name, table.space, table.idColumn] ++ table.classIdColumn.toList

/-- The names of a column. -/
def MappedColumn.identifiers (column : MappedColumn) : List String :=
  column.viewName ::
    match column.source with
    | .column name => [name]
    | .classId _ => []

/-- The names in a class map. -/
def ClassMap.identifiers (map : ClassMap) : List String :=
  map.table :: map.columns.flatMap (·.identifiers)

/-- The names in a catalog. -/
def Catalog.identifiers (catalog : Catalog) : List String :=
  catalog.tables.flatMap (·.identifiers) ++ catalog.maps.flatMap (·.identifiers)

/-- All names of a catalog may stand in brackets. -/
def Catalog.Plain (catalog : Catalog) : Prop :=
  ∀ x ∈ catalog.identifiers, Bracketable x

/-- The columns with the class of an instance may stand as they are. This is how conditions of
statements that change instances name them. -/
def Catalog.PlainClassColumns (catalog : Catalog) : Prop :=
  ∀ table ∈ catalog.tables, ∀ x ∈ table.classIdColumn, Bare x

/-- The names under which a function is called. -/
def FunctionDef.words (function : FunctionDef) : List String :=
  function.name ::
    match function.form with
    | .aggregatePredicate native => [native]
    | .plain | .julianDay => []

/-- All names of functions may stand as they are. -/
def Registry.Plain (registry : Registry) : Prop :=
  ∀ function ∈ registry.functions, ∀ x ∈ function.words, Bare x

instance (catalog : Catalog) : Decidable catalog.Plain :=
  inferInstanceAs (Decidable (∀ x ∈ catalog.identifiers, Bracketable x))

instance (catalog : Catalog) : Decidable catalog.PlainClassColumns :=
  inferInstanceAs (Decidable (∀ table ∈ catalog.tables, ∀ x ∈ table.classIdColumn, Bare x))

instance (registry : Registry) : Decidable registry.Plain :=
  inferInstanceAs (Decidable (∀ function ∈ registry.functions, ∀ x ∈ function.words, Bare x))

namespace Catalog

variable {catalog : Catalog} {x : String}

/-- The names of tables are names of the catalog. -/
theorem mem_identifiers_of_table {t : Table} (ht : t ∈ catalog.tables) (hx : x ∈ t.identifiers) :
    x ∈ catalog.identifiers :=
  List.mem_append_left _ (List.mem_flatMap.2 ⟨t, ht, hx⟩)

/-- The names of class maps are names of the catalog. -/
theorem mem_identifiers_of_map {m : ClassMap} (hm : m ∈ catalog.maps) (hx : x ∈ m.identifiers) :
    x ∈ catalog.identifiers :=
  List.mem_append_right _ (List.mem_flatMap.2 ⟨m, hm, hx⟩)

/-- The names of mapped columns are names of the catalog. -/
theorem mem_identifiers_of_column {m : ClassMap} (hm : m ∈ catalog.maps) {c : MappedColumn}
    (hc : c ∈ m.columns) (hx : x ∈ c.identifiers) : x ∈ catalog.identifiers :=
  mem_identifiers_of_map hm (List.mem_cons_of_mem _ (List.mem_flatMap.2 ⟨c, hc, hx⟩))

namespace Plain

/-- The names of class maps may stand in brackets. -/
theorem map (h : catalog.Plain) {m : ClassMap} (hm : m ∈ catalog.maps) (hx : x ∈ m.identifiers) :
    Bracketable x :=
  h x (mem_identifiers_of_map hm hx)

/-- The names of mapped columns may stand in brackets. -/
theorem column (h : catalog.Plain) {m : ClassMap} (hm : m ∈ catalog.maps) {c : MappedColumn}
    (hc : c ∈ m.columns) (hx : x ∈ c.identifiers) : Bracketable x :=
  h x (mem_identifiers_of_column hm hc hx)

end Plain

end Catalog

/-! ## Surroundings -/

/-- Statements are lowered, and classes are read through their views. -/
structure Environment.Standard (env : Environment) : Prop where
  texts : env.texts = none
  view : env.view = env.catalog.viewSource

/-- Lowering is standard and reads plain names only. -/
structure Environment.Plain (env : Environment) : Prop extends env.Standard where
  catalog : env.catalog.Plain
  functions : env.functions.Plain

/-- An environment made of a catalog has the views of that catalog. -/
theorem Environment.standard_of (catalog : Catalog) (options : Options) (functions : Registry) :
    (Environment.of catalog options functions).Standard :=
  ⟨rfl, rfl⟩

/-! ## Names that begin no comment -/

/-- No name begins a comment where it is written. -/
structure Vocabulary.Contained (v : Vocabulary) : Prop where
  identifiers : ∀ x ∈ v.identifiers, Enclosable x
  words : ∀ x ∈ v.words, Wordlike x

instance (v : Vocabulary) : Decidable v.Contained :=
  decidable_of_iff ((∀ x ∈ v.identifiers, Enclosable x) ∧ ∀ x ∈ v.words, Wordlike x)
    ⟨fun ⟨hi, hw⟩ => ⟨hi, hw⟩, fun h => ⟨h.identifiers, h.words⟩⟩

/-- No name in a node and below it begins a comment. -/
def Node.Contained (n : Node) : Prop :=
  ∀ m : Node, m.Within n → m.vocabulary.Contained

/-- A node is contained if its own names and its parts are. -/
theorem Node.contained_iff {n : Node} :
    n.Contained ↔ n.vocabulary.Contained ∧ ∀ m ∈ n.parts, m.Contained :=
  forall_within_iff

/-- No name in a statement begins a comment. -/
structure Statement.Contained (statement : Statement) : Prop where
  identifiers : ∀ x ∈ statement.identifiers, Enclosable x
  nodes : ∀ n ∈ statement.nodes, n.Contained

/-- No name in a catalog begins a comment in brackets. -/
def Catalog.Contained (catalog : Catalog) : Prop :=
  ∀ x ∈ catalog.identifiers, Enclosable x

/-- The columns with the class of an instance begin no comment as they are. -/
def Catalog.ContainedClassColumns (catalog : Catalog) : Prop :=
  ∀ table ∈ catalog.tables, ∀ x ∈ table.classIdColumn, Wordlike x

/-- No name of a function begins a comment. -/
def Registry.Contained (registry : Registry) : Prop :=
  ∀ function ∈ registry.functions, ∀ x ∈ function.words, Wordlike x

instance (catalog : Catalog) : Decidable catalog.Contained :=
  inferInstanceAs (Decidable (∀ x ∈ catalog.identifiers, Enclosable x))

instance (catalog : Catalog) : Decidable catalog.ContainedClassColumns :=
  inferInstanceAs (Decidable (∀ table ∈ catalog.tables, ∀ x ∈ table.classIdColumn, Wordlike x))

instance (registry : Registry) : Decidable registry.Contained :=
  inferInstanceAs (Decidable (∀ function ∈ registry.functions, ∀ x ∈ function.words, Wordlike x))

/-- Lowering is standard, and reads no names that begin comments. -/
structure Environment.Contained (env : Environment) : Prop extends env.Standard where
  catalog : env.catalog.Contained
  functions : env.functions.Contained

end EntitySql
