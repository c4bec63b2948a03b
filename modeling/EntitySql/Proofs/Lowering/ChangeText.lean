import EntitySql.Proofs.Anchors

/-!
# The SQL of updates and deletions

The parts of the SQL that an update or a deletion is lowered to, traced back to what they are made
from: the table of the class, the new values, the condition of the statement, and the one on the
class of a row. `Change.exists_parts` takes a run of lowering apart and puts the texts of its parts
together.
-/

namespace EntitySql

open Sql (AnchorTable Fragment bracketed)

/-- A statement that changes some of the instances of a class. -/
inductive Change where
  | update (change : Update)
  | delete (change : Delete)

namespace Change

/-- The change as a statement. -/
def statement : Change → Statement
  | update change => .update change
  | delete change => .delete change

/-- The kind of the statement. -/
def kind : Change → StatementKind
  | update _ => .update
  | delete _ => .delete

/-- The class whose instances are changed. -/
def className : Change → ClassName
  | update change => change.className
  | delete change => change.className

/-- The condition on the instances. -/
def condition : Change → Option Exp
  | update change => change.condition
  | delete change => change.condition

end Change

/-! ## Texts of the parts -/

/-- The state in which the parts of a change are lowered. -/
def State.changing (kind : StatementKind) : State :=
  { State.initial with scopes := [.change kind] }

/-- Lowering the assignments of an update gives this text and leads to this state. The anchors are
rendered at the end of the statement. -/
def Update.Assigns (env : Environment) (change : Update) (text : String) (s : State) : Prop :=
  ∃ t, ∃ assignments : List (Sql.Columns × Sql.Columns),
    change.assignments.mapM Lowering.assignment env (.changing .update) = (.ok assignments, s)
    ∧ s.anchors ≤ t
    ∧ t.render (Fragment.join "," (assignments.flatMap fun p =>
      List.zipWith (fun (column value : Fragment) => column ++ "=" ++ value) p.1 p.2)) = .ok text

/-- A change of a table starts with this text, up to its condition, which is lowered in this
state. -/
def Change.Begins (env : Environment) (change : Change) (table text : String) (s : State) : Prop :=
  match change with
  | .update change => ∃ values, change.Assigns env values s
    ∧ text = "UPDATE " ++ bracketed table ++ " SET " ++ values
  | .delete _ => s = .changing .delete ∧ text = "DELETE FROM " ++ bracketed table

/-- Lowering the expression in this state, as the last part of a statement, gives this text. -/
def Exp.GivesText (env : Environment) (s : State) (e : Exp) (text : String) : Prop :=
  ∃ s' f, e.lower env s = (.ok [f], s') ∧ s'.anchors.render f = .ok text

/-- Both conditions, as far as there are any. -/
def conjoined : Option String → Option String → Option String
  | some predicate, some filter => some ("(" ++ predicate ++ ") AND (" ++ filter ++ ")")
  | some predicate, none => some predicate
  | none, some filter => some ("(" ++ filter ++ ")")
  | none, none => none

/-- The clause with a condition that may be absent. -/
def whereText : Option String → String
  | some condition => " WHERE " ++ condition
  | none => ""

/-- The condition on the class of a row, as it is written. -/
def filterText (table : Table) (filter : Option ClassFilter) : Option String := do
  return (← filter).sql (← table.classIdColumn)

namespace Lowering

variable {α : Type} {env : Environment} {s s' s'' : State} {c : ClassName} {kind : StatementKind}
  {table : Table}

/-! ## Taking runs apart -/

/-- A run in a scope of its own, without that scope. -/
theorem withScope_eq_ok {scope : Scope} {step : Lowering α} {a : α}
    (h : withScope scope step env s = (.ok a, s')) :
    ∃ s'', step env { s with scopes := scope :: s.scopes } = (.ok a, s'')
      ∧ s' = { s'' with scopes := s''.scopes.tail } := by
  obtain ⟨hresult, hstate⟩ := Prod.mk.inj h
  exact ⟨_, Prod.ext hresult rfl, hstate.symm⟩

/-- A class that may be used has this map. -/
theorem usableMap_eq_ok {map : ClassMap} (h : usableMap c env s = (.ok map, s')) :
    env.catalog.classMap c.classId = .ok map ∧ s' = s := by
  refine ⟨?_, eq_of_usableMap h⟩
  simp only [usableMap, bind_apply, catalog] at h
  cases hmap : env.catalog.classMap c.classId with
  | ok found =>
    rw [hmap] at h
    exact congrArg _ (Except.ok.inj (Prod.mk.inj h).1)
  | error error =>
    rw [hmap] at h
    cases error <;> cases (Prod.mk.inj h).1

/-- An answer of the catalog leaves the state as it is. -/
theorem ofCatalog_eq_ok {answer : Except CatalogError α} {a : α}
    (h : ofCatalog answer env s = (.ok a, s')) : answer = .ok a ∧ s' = s := by
  obtain ⟨hanswer, hstate⟩ := Prod.mk.inj h
  cases answer with
  | error error => cases hanswer
  | ok found => exact ⟨congrArg _ (Except.ok.inj hanswer), hstate.symm⟩

/-- The class is stored in one table together with all its subclasses. -/
theorem checkSingleTable_eq_ok (h : checkSingleTable c env s = (.ok (), s')) :
    s' = s ∧ ∃ tables, env.catalog.hierarchyTables c.classId = .ok tables ∧ tables.length ≤ 1 := by
  change (ofCatalog (env.catalog.hierarchyTables c.classId) >>= _) env s = _ at h
  obtain ⟨tables, _, hlookup, hcheck⟩ := bind_eq_ok.1 h
  obtain ⟨htables, rfl⟩ := ofCatalog_eq_ok hlookup
  by_cases hseveral : 1 < tables.length
  · rw [if_pos hseveral] at hcheck
    cases (Prod.mk.inj hcheck).1
  · rw [if_neg hseveral] at hcheck
    exact ⟨(eq_of_pure hcheck).2, tables, htables, Nat.le_of_not_lt hseveral⟩

/-- What a class has to be like to be the target of a change. -/
def AllowsTarget (catalog : Catalog) (kind : StatementKind) (c : ClassName) : Prop :=
  c.polymorphic = true → kind = .delete
    ∧ ∃ tables, catalog.hierarchyTables c.classId = .ok tables ∧ tables.length ≤ 1

/-- A change of a class names the table of its map, if the class allows it. -/
theorem tableName_eq_ok {f : Fragment} (h : tableName kind c env s = (.ok f, s')) :
    s' = s ∧ AllowsTarget env.catalog kind c
      ∧ ∃ map, env.catalog.classMap c.classId = .ok map ∧ f = bracketed map.table := by
  obtain ⟨map, _, hlookup, hchecks⟩ := bind_eq_ok.1 h
  obtain ⟨hmap, rfl⟩ := usableMap_eq_ok hlookup
  by_cases hpolymorphic : c.polymorphic = true
  · rw [if_pos hpolymorphic] at hchecks
    by_cases hkind : kind = .delete
    · rw [if_pos hkind] at hchecks
      obtain ⟨_, _, hcheck, hname⟩ := bind_eq_ok.1 hchecks
      obtain ⟨rfl, hsingle⟩ := checkSingleTable_eq_ok hcheck
      obtain ⟨hf, hstate⟩ := eq_of_pure hname
      exact ⟨hstate, fun _ => ⟨hkind, hsingle⟩, map, hmap, hf⟩
    · rw [if_neg hkind] at hchecks
      cases (Prod.mk.inj hchecks).1
  · rw [if_neg hpolymorphic] at hchecks
    obtain ⟨hf, hstate⟩ := eq_of_pure hchecks
    exact ⟨hstate, fun h => absurd h hpolymorphic, map, hmap, hf⟩

/-- The target of a change is the table of its class, if the class allows it. -/
theorem changeTarget_eq_ok {f : Fragment} (h : changeTarget kind c env s = (.ok (f, table), s')) :
    s' = s ∧ AllowsTarget env.catalog kind c
      ∧ ∃ map, env.catalog.classMap c.classId = .ok map ∧ env.catalog.table map.table = .ok table
        ∧ f = bracketed map.table := by
  obtain ⟨f', _, hname, hrest⟩ := bind_eq_ok.1 h
  obtain ⟨rfl, hallows, map, hmap, rfl⟩ := tableName_eq_ok hname
  obtain ⟨map', _, hlookup, hrest'⟩ := bind_eq_ok.1 hrest
  obtain ⟨hmap', rfl⟩ := usableMap_eq_ok hlookup
  obtain rfl := Except.ok.inj (hmap.symm.trans hmap')
  change (ofCatalog (env.catalog.table map.table) >>= _) env _ = _ at hrest'
  obtain ⟨table', _, hfind, hpair⟩ := bind_eq_ok.1 hrest'
  obtain ⟨htable, rfl⟩ := ofCatalog_eq_ok hfind
  obtain ⟨hparts, hstate⟩ := eq_of_pure hpair
  obtain ⟨hf, rfl⟩ := Prod.mk.inj hparts
  exact ⟨hstate, hallows, map, hmap, htable, hf⟩

/-! ## Conditions -/

/-- The classes of rows are only filtered if the table has a column for them. -/
theorem changeFilter_eq_ok {text : Option String} (h : changeFilter c table env s = (.ok text, s')) :
    s' = s ∧ ∃ filter, text = filterText table filter
      ∧ (table.classIdColumn ≠ none →
        env.catalog.classFilter table c.classId c.polymorphic = .ok filter) := by
  cases hcolumn : table.classIdColumn with
  | none =>
    rw [changeFilter, hcolumn] at h
    obtain ⟨htext, hstate⟩ := eq_of_pure h
    exact ⟨hstate, none, htext, fun hne => absurd rfl hne⟩
  | some column =>
    rw [changeFilter, hcolumn] at h
    change (ofCatalog (env.catalog.classFilter table c.classId c.polymorphic) >>= _) env s = _ at h
    obtain ⟨filter, _, hlookup, hpure⟩ := bind_eq_ok.1 h
    obtain ⟨hfilter, rfl⟩ := ofCatalog_eq_ok hlookup
    obtain ⟨htext, hstate⟩ := eq_of_pure hpure
    refine ⟨hstate, filter, ?_, fun _ => hfilter⟩
    rw [htext, filterText, hcolumn]
    cases filter <;> rfl

/-- An operand that has to be one column is lowered as usual. -/
theorem single_eq_ok {e : Exp} {role : String} {f : Fragment}
    (h : e.operand.single role env s = (.ok f, s')) : e.lower env s = (.ok [f], s') := by
  obtain ⟨columns, _, hlower, hcolumns⟩ := bind_eq_ok.1 h
  rcases columns with _ | ⟨column, _ | ⟨next, rest⟩⟩
  · cases (Prod.mk.inj hcolumns).1
  · obtain ⟨rfl, rfl⟩ := eq_of_pure hcolumns
    exact hlower
  · cases (Prod.mk.inj hcolumns).1

/-- An operand that may be missing is lowered as usual if it is there, and nothing is done if not.
-/
theorem single?_eq_ok {condition : Option Exp} {role : String} {result : Option Fragment}
    (h : Operand.single? (optionOperand condition) role env s = (.ok result, s')) :
    Option.Rel (fun e f => e.lower env s = (.ok [f], s')) condition result
      ∧ (condition = none → s' = s) := by
  cases condition with
  | none =>
    obtain ⟨rfl, hstate⟩ := eq_of_pure h
    exact ⟨.none, fun _ => hstate⟩
  | some e =>
    obtain ⟨f, _, hsingle, hsome⟩ := bind_eq_ok.1 h
    change (pure (some f) : Lowering _) env _ = _ at hsome
    obtain ⟨rfl, rfl⟩ := eq_of_pure hsome
    exact ⟨.some (single_eq_ok hsingle), nofun⟩

/-- The condition of a change is made of that of the statement and that on the class. -/
theorem changeCondition_eq_ok {condition : Option Exp} {f : Fragment}
    (h : changeCondition c table condition env s = (.ok f, s')) :
    ∃ predicate filter, f = whereClause predicate (filterText table filter)
      ∧ Option.Rel (fun e g => e.lower env s = (.ok [g], s')) condition predicate
      ∧ (condition = none → s' = s)
      ∧ (table.classIdColumn ≠ none →
        env.catalog.classFilter table c.classId c.polymorphic = .ok filter) := by
  rw [changeCondition_eq] at h
  obtain ⟨predicate, _, hsingle, hrest⟩ := bind_eq_ok.1 h
  obtain ⟨text, _, hlookup, hclause⟩ := bind_eq_ok.1 hrest
  obtain ⟨rfl, filter, rfl, hfilter⟩ := changeFilter_eq_ok hlookup
  obtain ⟨rfl, rfl⟩ := eq_of_pure hclause
  obtain ⟨hlower, hstate⟩ := single?_eq_ok hsingle
  exact ⟨predicate, filter, rfl, hlower, hstate, hfilter⟩

end Lowering

namespace Sql.AnchorTable

variable {t : AnchorTable} {f : Fragment} {text : String}

/-- What the clause with the condition renders to. -/
theorem render_whereClause {condition : Option Fragment} {filter : Option String}
    (h : t.render (Lowering.whereClause condition filter) = .ok text) :
    ∃ predicate, Option.Rel (fun f x => t.render f = .ok x) condition predicate
      ∧ text = whereText (conjoined predicate filter) := by
  have hopen : " WHERE (" = " WHERE " ++ "(" := rfl
  have hclose : ") AND (" = ")" ++ " AND (" := rfl
  cases condition with
  | none =>
    refine ⟨none, .none, ?_⟩
    cases filter with
    | none => exact (Except.ok.inj h).symm
    | some filter =>
      rw [Lowering.whereClause, render_ofText] at h
      obtain rfl := Except.ok.inj h
      simp only [whereText, conjoined, hopen, String.append_assoc]
  | some f =>
    cases filter with
    | none =>
      obtain ⟨x, hx, rfl⟩ := render_text_append h
      exact ⟨some x, .some hx, rfl⟩
    | some filter =>
      rw [Lowering.whereClause, Fragment.parenthesized] at h
      obtain ⟨_, _, hfirst, hsecond, rfl⟩ := render_append_eq_ok.1 h
      obtain ⟨_, hparenthesized, rfl⟩ := render_text_append hfirst
      obtain ⟨_, hopened, rfl⟩ := render_append_text hparenthesized
      obtain ⟨x, hx, rfl⟩ := render_text_append hopened
      obtain ⟨_, hfilter, rfl⟩ := render_append_text hsecond
      obtain ⟨_, htext, rfl⟩ := render_text_append hfilter
      rw [render_ofText] at htext
      obtain rfl := Except.ok.inj htext
      refine ⟨some x, .some hx, ?_⟩
      simp only [whereText, conjoined, hclose, String.append_assoc]

end Sql.AnchorTable

/-! ## Statements -/

/-- The parts of the SQL of a change. -/
structure Change.Parts where
  map : ClassMap
  table : Table
  /-- The text up to the condition. -/
  front : String
  /-- The state in which the condition of the statement is lowered. -/
  state : State
  /-- The text of the condition of the statement. -/
  predicate : Option String
  filter : Option ClassFilter

namespace Change.Parts

/-- The text of the condition on the class of a row. -/
def filterText (parts : Parts) : Option String :=
  EntitySql.filterText parts.table parts.filter

/-- The text of the whole condition. -/
def condition (parts : Parts) : Option String :=
  conjoined parts.predicate parts.filterText

/-- The SQL of a change is made of these parts, and they are those of its class and of what it
holds. -/
structure Make (parts : Parts) (env : Environment) (change : Change) (sql : String) : Prop where
  map : env.catalog.classMap change.className.classId = .ok parts.map
  table : env.catalog.table parts.map.table = .ok parts.table
  allows : Lowering.AllowsTarget env.catalog change.kind change.className
  front : change.Begins env parts.map.table parts.front parts.state
  predicate : Option.Rel (fun e x => e.GivesText env parts.state x) change.condition parts.predicate
  filter : parts.table.classIdColumn ≠ none → env.catalog.classFilter parts.table
    change.className.classId change.className.polymorphic = .ok parts.filter
  sql : sql = parts.front ++ whereText parts.condition

end Change.Parts

/-- The SQL of a statement is the text of its output. -/
theorem Statement.render_of_finish {env : Environment} {s : State} {f : Fragment} {sql : String}
    (hbuffer : s.buffer = Sql.Buffer.empty.append f) (h : (finish env s).1 = .ok sql) :
    s.anchors.render f = .ok sql := by
  have hroot : s.buffer.root = Fragment.ofText "" ++ f := by rw [hbuffer]; rfl
  have hrender := render_root_of_finish h
  rw [hroot] at hrender
  obtain ⟨y, hy, rfl⟩ := AnchorTable.render_text_append hrender
  rw [hy, String.empty_append]

/-- Lowering an expression writes nothing. -/
theorem Exp.keeps_of_lower {env : Environment} {e : Exp} {s s' : State} {columns : Sql.Columns}
    (hs : s.pending = none) (h : e.lower env s = (.ok columns, s')) : s.Keeps s' := by
  let S := Setting.unnamed env s.anchors
  have hlowers : S.Lowers Setting.unknown e := Setting.holds Setting.closed_unknown (.exp e)
  exact (hlowers.lower.meets.success ⟨hs, False.elim⟩ h).keeps

/-- Lowering assignments writes nothing. -/
theorem Lowering.keeps_of_assignments {env : Environment} {as : List Assignment} {s s' : State}
    {results : List (Sql.Columns × Sql.Columns)} (hs : s.pending = none)
    (h : as.mapM assignment env s = (.ok results, s')) : s.Keeps s' := by
  have hspec := Setting.spec_assignments (S := .unnamed env s.anchors)
    fun e (_ : e ∈ as.map (·.value)) => Setting.holds Setting.closed_unknown (.exp e)
  exact (hspec.meets.success ⟨hs, False.elim⟩ h).keeps

/-- The text of a condition that was lowered and rendered. -/
theorem Exp.givesText_of_render {env : Environment} {s s' : State} {condition : Option Exp}
    {f : Option Fragment} {predicate : Option String}
    (hlower : Option.Rel (fun e g => e.lower env s = (.ok [g], s')) condition f)
    (hrender : Option.Rel (fun g x => s'.anchors.render g = .ok x) f predicate) :
    Option.Rel (fun e x => e.GivesText env s x) condition predicate := by
  cases hlower with
  | none =>
    cases hrender
    exact .none
  | some hlower =>
    cases hrender with
    | some hrender => exact .some ⟨s', _, hlower, hrender⟩

/-- Lowering a condition writes nothing, if there is one. -/
theorem Exp.keeps_of_condition {env : Environment} {s s' : State} {condition : Option Exp}
    {f : Option Fragment} (hs : s.pending = none)
    (hlower : Option.Rel (fun e g => e.lower env s = (.ok [g], s')) condition f)
    (hnone : condition = none → s' = s) : s.Keeps s' := by
  cases hlower with
  | none =>
    rw [hnone rfl]
    exact .refl s
  | some hlower => exact keeps_of_lower hs hlower

/-- A change that could be lowered: its class has a table, and what is written behind the target is
rendered. -/
theorem Statement.exists_run {statement : Statement} {env : Environment} {kind : StatementKind}
    {c : ClassName} {text : StatementTexts → String} {next : Fragment × Table → Lowering Unit}
    {p : LoweredStatement} (htexts : env.texts = none) (hkind : kind ≠ .select)
    (hstatement : statement.write = Lowering.writeOr text
      (Lowering.withScope (.change kind) (Lowering.target c >>= next)))
    (h : (statement.lower env).1 = .ok p) :
    ∃ map table s, env.catalog.classMap c.classId = .ok map
      ∧ env.catalog.table map.table = .ok table ∧ Lowering.AllowsTarget env.catalog kind c
      ∧ next (Fragment.ofText (bracketed map.table), table) env (.changing kind) = (.ok (), s)
      ∧ ∀ f s', Lowering.append f env s' = (.ok (), s) → s'.buffer = Sql.Buffer.empty →
        s'.anchors.render f = .ok p.sql := by
  obtain ⟨s, hwrite, hfinish⟩ := exists_write_of_prepare (prepare_of_lower h)
  rw [hstatement, Setting.writeOr_apply, htexts, Option.elim_none,
    Lowering.withScope_target_bind hkind] at hwrite
  obtain ⟨s', hbody, rfl⟩ := Lowering.withScope_eq_ok hwrite
  obtain ⟨⟨f, table⟩, _, htarget, hnext⟩ := Lowering.bind_eq_ok.1 hbody
  obtain ⟨rfl, hallows, map, hmap, htable, rfl⟩ := Lowering.changeTarget_eq_ok htarget
  refine ⟨map, table, s', hmap, htable, hallows, hnext, fun f s'' happend hbuffer => ?_⟩
  obtain rfl := (Prod.mk.inj happend).2
  have houtput : s''.buffer.append f = Sql.Buffer.empty.append f := congrArg (·.append f) hbuffer
  exact render_of_finish (s := { s'' with buffer := s''.buffer.append f, scopes := _ }) houtput hfinish

/-- An insertion has a value for each of its properties. -/
theorem Insert.length_of_lower {statement : Insert} {env : Environment} {p : LoweredStatement}
    (htexts : env.texts = none) (h : ((Statement.insert statement).lower env).1 = .ok p) :
    statement.properties.length = statement.values.length := by
  by_contra hcount
  obtain ⟨s, hwrite, -⟩ := Statement.exists_write_of_prepare (Statement.prepare_of_lower h)
  rw [Statement.write, Setting.writeOr_apply, htexts, Option.elim_none] at hwrite
  obtain ⟨_, hbody, -⟩ := Lowering.withScope_eq_ok hwrite
  rw [Lowering.insertBody, if_pos hcount] at hbody
  obtain ⟨_, _, hreject, -⟩ := Lowering.bind_eq_ok.1 hbody
  cases (Prod.mk.inj hreject).1

/-- Instances are only inserted into a class by itself. -/
theorem Insert.allowsTarget_of_lower {statement : Insert} {env : Environment} {p : LoweredStatement}
    (htexts : env.texts = none) (h : ((Statement.insert statement).lower env).1 = .ok p) :
    Lowering.AllowsTarget env.catalog .insert statement.className := by
  have hcount := length_of_lower htexts h
  have hkind : StatementKind.insert ≠ .select := by decide
  obtain ⟨_, _, _, -, -, hallows, -⟩ := Statement.exists_run htexts hkind
    (by rw [Statement.write, Lowering.insertBody, if_neg (not_not_intro hcount)]) h
  exact hallows

namespace Change

variable {env : Environment} {p : LoweredStatement}

/-- A change that could be lowered is made of its parts. -/
theorem exists_parts {change : Change} (htexts : env.texts = none)
    (h : (change.statement.lower env).1 = .ok p) :
    ∃ parts : Parts, parts.Make env change p.sql := by
  cases change with
  | delete change =>
    obtain ⟨map, table, s, hmap, htable, hallows, hnext, hrender⟩ :=
      Statement.exists_run htexts (by decide) rfl h
    obtain ⟨clause, s₁, hcondition, happend⟩ := Lowering.bind_eq_ok.1 hnext
    obtain ⟨f, filter, rfl, hlower, hnone, hfilter⟩ := Lowering.changeCondition_eq_ok hcondition
    have hbuffer : s₁.buffer = Sql.Buffer.empty := (Exp.keeps_of_condition rfl hlower hnone).buffer
    have hsql := hrender _ s₁ happend hbuffer
    obtain ⟨_, _, hfront, hclause, hsplit⟩ := AnchorTable.render_append_eq_ok.1 hsql
    obtain ⟨_, hname, rfl⟩ := AnchorTable.render_text_append hfront
    rw [AnchorTable.render_ofText] at hname
    obtain rfl := Except.ok.inj hname
    obtain ⟨predicate, hpredicate, rfl⟩ := AnchorTable.render_whereClause hclause
    exact ⟨⟨map, table, _, _, predicate, filter⟩, hmap, htable, hallows, ⟨rfl, rfl⟩,
      Exp.givesText_of_render hlower hpredicate, hfilter, hsplit⟩
  | update change =>
    obtain ⟨map, table, s, hmap, htable, hallows, hnext, hrender⟩ :=
      Statement.exists_run htexts (by decide) rfl h
    obtain ⟨assignments, s₁, hassignments, hrest⟩ := Lowering.bind_eq_ok.1 hnext
    have hkeeps := Lowering.keeps_of_assignments rfl hassignments
    obtain ⟨clause, s₂, hcondition, happend⟩ := Lowering.bind_eq_ok.1 hrest
    obtain ⟨f, filter, rfl, hlower, hnone, hfilter⟩ := Lowering.changeCondition_eq_ok hcondition
    have hkeeps' := Exp.keeps_of_condition hkeeps.pending hlower hnone
    have hbuffer : s₂.buffer = Sql.Buffer.empty := hkeeps'.buffer.trans hkeeps.buffer
    have hsql := hrender _ s₂ happend hbuffer
    obtain ⟨_, _, hfront, hclause, hsplit⟩ := AnchorTable.render_append_eq_ok.1 hsql
    obtain ⟨_, values, hset, hvalues, rfl⟩ := AnchorTable.render_append_eq_ok.1 hfront
    obtain ⟨_, htarget, rfl⟩ := AnchorTable.render_append_text hset
    obtain ⟨_, hname, rfl⟩ := AnchorTable.render_text_append htarget
    rw [AnchorTable.render_ofText] at hname
    obtain rfl := Except.ok.inj hname
    obtain ⟨predicate, hpredicate, rfl⟩ := AnchorTable.render_whereClause hclause
    have hassigns : change.Assigns env values s₁ :=
      ⟨s₂.anchors, assignments, hassignments, AnchorTable.le_of_prefix hkeeps'.anchors, hvalues⟩
    exact ⟨⟨map, table, _, s₁, predicate, filter⟩, hmap, htable, hallows, ⟨values, hassigns, rfl⟩,
      Exp.givesText_of_render hlower hpredicate, hfilter, hsplit⟩

end Change

/-! ## Plain names -/

/-- The assignments of an update lead to a state in which each parameter has its own names. If names
are plain, the text has quotes, brackets and parentheses that close. -/
theorem Update.Assigns.shifts {env : Environment} {update : Update} {text : String} {s : State}
    (h : update.Assigns env text s) (henv : env.Plain) (hupdate : (Statement.update update).Plain) :
    Sql.Shifts 0 0 (Sql.textSymbols text) ∧ s.pending = none
      ∧ s.parameters.BoundBy fun _ => True := by
  obtain ⟨t, assignments, hassignments, hle, hrender⟩ := h
  let S : Setting := ⟨env, t, True⟩
  have hfitting : S.Fitting .balanced (S.fitting .balanced) :=
    Setting.fitting_fitting (fun _ => henv) id
  have hclosed : (S.fitting .balanced).Closed S := Setting.closed_fitting (fun _ => henv) id
  have hspec := Setting.spec_assignments fun e (_ : e ∈ update.assignments.map (·.value)) =>
    Setting.holds hclosed (.exp e)
  have hsuccess := hspec.meets.success ⟨rfl, fun _ => ParameterMap.boundBy_empty⟩ hassignments
  have hpairs := forall_of_forall₂ (hsuccess.result hle) fun a ha _ hform =>
    hfitting.assignment hform
      (fun x hx _ => hupdate.identifiers x (List.mem_flatMap.2 ⟨a, ha, hx⟩))
      fun _ => hupdate.nodes _ (List.mem_append_left _ (List.mem_map_of_mem ha))
  exact ⟨(Setting.Fitting.newValues hpairs).admits_of_render hrender trivial,
    hsuccess.keeps.pending, hsuccess.parameters trivial⟩

namespace Change

variable {env : Environment} {change : Change} {table text : String} {s : State}

/-- The condition of a change is lowered in a state in which each parameter has its own names. -/
theorem Begins.parameters (h : change.Begins env table text s) (henv : env.Plain)
    (hchange : change.statement.Plain) :
    s.pending = none ∧ s.parameters.BoundBy fun _ => True := by
  cases change with
  | delete change =>
    obtain ⟨rfl, -⟩ := h
    exact ⟨rfl, ParameterMap.boundBy_empty⟩
  | update change =>
    obtain ⟨_, hassigns, -⟩ := h
    exact (hassigns.shifts henv hchange).2

/-- A change with plain names starts with a text whose quotes, brackets and parentheses close. -/
theorem Begins.closes (h : change.Begins env table text s) (htable : Sql.Bracketable table)
    (henv : env.Plain) (hchange : change.statement.Plain) :
    Sql.closesFrom .plain 0 text.toList = true := by
  have hname : Sql.Shifts 0 0 (Sql.textSymbols (bracketed table)) := Sql.shifts_bracketed htable
  refine Sql.closesFrom_of_shifts ?_
  cases change with
  | delete change =>
    obtain ⟨-, rfl⟩ := h
    have hdelete : Sql.Shifts 0 0 (Sql.textSymbols "DELETE FROM ") := by decide
    rw [Sql.textSymbols_append]
    exact hdelete.append hname
  | update change =>
    obtain ⟨values, hassigns, rfl⟩ := h
    have hupdate : Sql.Shifts 0 0 (Sql.textSymbols "UPDATE ") := by decide
    have hset : Sql.Shifts 0 0 (Sql.textSymbols " SET ") := by decide
    obtain ⟨hvalues, -⟩ := hassigns.shifts henv hchange
    rw [Sql.textSymbols_append, Sql.textSymbols_append, Sql.textSymbols_append]
    exact ((hupdate.append hname).append hset).append hvalues

/-- The condition of a change with plain names has a text whose quotes, brackets and parentheses
close. -/
theorem closes_of_givesText {x : String} {e : Exp} (hbegins : change.Begins env table text s)
    (henv : env.Plain) (hchange : change.statement.Plain) (he : e ∈ change.condition)
    (h : e.GivesText env s x) : Sql.closesFrom .plain 0 x.toList = true := by
  obtain ⟨s', f, hlower, hrender⟩ := h
  obtain ⟨hpending, hparameters⟩ := hbegins.parameters henv hchange
  have hnode : (Node.exp e).Plain := by
    refine hchange.nodes _ ?_
    cases change with
    | delete change => exact List.mem_map_of_mem (Option.mem_toList.2 he)
    | update change =>
      exact List.mem_append_right _ (List.mem_map_of_mem (Option.mem_toList.2 he))
  have hsuccess := Setting.success_fit (S := ⟨env, s'.anchors, True⟩) (p := .balanced)
    (fun _ => henv) id (fun _ => hnode) ⟨hpending, fun _ => hparameters⟩ hlower
  have hfit := hsuccess.result (AnchorTable.le_refl _) f (List.mem_singleton_self f)
  exact Sql.closesFrom_of_shifts (hfit.fits.admits_of_render hrender trivial)

end Change

end EntitySql
