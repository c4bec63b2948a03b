import EntitySql.Proofs.Comments.Signs
import EntitySql.Proofs.Sql.Promise

/-!
# Names that suit a concern

What has to be known about the names in a statement and in its surroundings depends on the concern:
they are plain if parentheses are, and contained if comments are. In the latter case no two signs
may meet either. `Suits` says this under a promise. What follows for the names that a node
contributes is stated with the promise, and is the same for both concerns.
-/

namespace EntitySql

open Sql (Promise)

variable {p : Promise}

/-! ## Nodes -/

/-- Under the promise, the names in a node and below it suit the concern. -/
def Node.Suits (p : Promise) (n : Node) : Prop :=
  p.given →
    match p.concern with
    | .nesting => n.Plain
    | .comments => n.Contained ∧ n.SignsApart

namespace Node.Suits

variable {m n : Node}

/-- The parts of a node suit a promise that the node suits. -/
theorem part (h : n.Suits p) (hm : m ∈ n.parts) : m.Suits p := by
  obtain ⟨_ | _, given⟩ := p
  · exact fun hp => (h hp).part hm
  · exact fun hp => ⟨(contained_iff.1 (h hp).1).2 m hm, (signsApart_iff.1 (h hp).2).2 m hm⟩

/-- Names that stand in brackets suit the promise. -/
theorem identifiers (h : n.Suits p) : ∀ x ∈ n.vocabulary.identifiers, p.Bracketable x := by
  intro x hx
  obtain ⟨_ | _, given⟩ := p
  · exact fun hp => (h hp).vocabulary.identifiers x hx
  · exact fun hp => (contained_iff.1 (h hp).1).1.identifiers x hx

/-- Names that stand bare suit the promise. -/
theorem words (h : n.Suits p) : ∀ x ∈ n.vocabulary.words, p.Bare x := by
  intro x hx
  obtain ⟨_ | _, given⟩ := p
  · exact fun hp => (h hp).vocabulary.words x hx
  · exact fun hp => (contained_iff.1 (h hp).1).1.words x hx

/-- Texts in quotes suit the promise. -/
theorem texts (h : n.Suits p) : ∀ x ∈ n.vocabulary.texts, p.Quotable x := by
  intro x hx
  obtain ⟨_ | _, given⟩ := p
  · exact fun hp => (h hp).vocabulary.texts x hx
  · exact fun _ => trivial

/-- What stands behind a minus sign does not lead with another one. -/
theorem leads {operand : Exp} {type : ValueType} {s : List Sql.Symbol}
    (h : (Node.exp (.sign .minus operand type)).Suits p)
    (hs : operand.leadsWithMinus = false → p.Leads s) : p.Leads s := by
  obtain ⟨_ | _, given⟩ := p
  · exact fun _ => trivial
  · exact fun hp => hs (signsApart_iff.1 (h hp).2).1 hp

end Node.Suits

/-- The classes at the end of a source have names that suit if all its names do. -/
theorem Source.bracketable_lastClass {source : Source} (h : (Node.source source).Suits p) :
    ∀ c ∈ source.lastClass?, p.Bracketable c.effectiveAlias := by
  intro c hc
  match source with
  | .ofClass c' =>
    obtain rfl : c' = c := Option.some.inj hc
    exact h.identifiers _ (List.mem_cons_self ..)
  | .join lhs rhs kind =>
    have hrhs : (Node.source rhs).Suits p := h.part (List.mem_cons_of_mem _ (List.mem_cons_self ..))
    exact bracketable_lastClass hrhs c hc
  | .subquery .. | .function .. | .commonTable .. => cases hc

/-! ## Surroundings -/

/-- Under the promise, the names in the catalog and in the registry suit the concern. -/
def Environment.Suits (p : Promise) (env : Environment) : Prop :=
  p.given →
    match p.concern with
    | .nesting => env.Plain
    | .comments => env.Contained

namespace Environment.Suits

variable {env : Environment}

/-- Surroundings that suit a promise have standard views. -/
theorem standard (h : env.Suits p) (hp : p.given) : env.Standard := by
  obtain ⟨_ | _, given⟩ := p
  · exact (h hp).toStandard
  · exact (h hp).toStandard

/-- The names of the catalog suit the promise. -/
theorem catalog (h : env.Suits p) : ∀ x ∈ env.catalog.identifiers, p.Bracketable x := by
  intro x hx
  obtain ⟨_ | _, given⟩ := p
  · exact fun hp => (h hp).catalog x hx
  · exact fun hp => (h hp).catalog x hx

/-- The names of functions suit the promise. -/
theorem functions (h : env.Suits p) :
    ∀ function ∈ env.functions.functions, ∀ x ∈ function.words, p.Bare x := by
  intro function hfunction x hx
  obtain ⟨_ | _, given⟩ := p
  · exact fun hp => (h hp).functions function hfunction x hx
  · exact fun hp => (h hp).functions function hfunction x hx

end Environment.Suits

/-! ## Statements -/

/-- Under the promise, the names in a statement suit the concern, and so do the columns with the
class of an instance if the statement can name them. -/
def Statement.Suits (p : Promise) (catalog : Catalog) (statement : Statement) : Prop :=
  p.given →
    match p.concern with
    | .nesting => statement.Plain ∧ (statement.kind ≠ .select → catalog.PlainClassColumns)
    | .comments => (statement.Contained ∧ statement.SignsApart)
      ∧ (statement.kind ≠ .select → catalog.ContainedClassColumns)

namespace Statement.Suits

variable {catalog : Catalog} {statement : Statement}

/-- The names of a statement suit the promise. -/
theorem identifiers (h : statement.Suits p catalog) :
    ∀ x ∈ statement.identifiers, p.Bracketable x := by
  intro x hx
  obtain ⟨_ | _, given⟩ := p
  · exact fun hp => (h hp).1.identifiers x hx
  · exact fun hp => (h hp).1.1.identifiers x hx

/-- The nodes of a statement suit a promise that the statement suits. -/
theorem nodes (h : statement.Suits p catalog) : ∀ n ∈ statement.nodes, n.Suits p := by
  intro n hn
  obtain ⟨_ | _, given⟩ := p
  · exact fun hp => (h hp).1.nodes n hn
  · exact fun hp => ⟨(h hp).1.1.nodes n hn, (h hp).1.2 n hn⟩

/-- Only changes write the columns with the classes of rows bare. -/
theorem classColumns (h : statement.Suits p catalog) (hkind : statement.kind ≠ .select) :
    ∀ table ∈ catalog.tables, ∀ x ∈ table.classIdColumn, p.Bare x := by
  intro table htable x hx
  obtain ⟨_ | _, given⟩ := p
  · exact fun hp => (h hp).2 hkind table htable x hx
  · exact fun hp => (h hp).2 hkind table htable x hx

end Statement.Suits

end EntitySql
