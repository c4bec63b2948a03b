import EntitySql.Proofs.Lowering.Change

/-!
# The specifications of statements

A statement writes output of its `Form`. Once it is written all anchors are settled, so that what is
known of its parts may be used.
-/

namespace EntitySql

open Lowering
open Sql (AnchorTable CapturedSelect Fragment)

variable (S : Setting) (R : Results)

/-- A common table behind a separator. -/
inductive CommonTable.Form (separator : String) (table : CommonTable) : Fragment → Prop
  | intro {captured : CapturedSelect} {f : Fragment} (h : R.select table.select none captured f) :
    Form separator table ((separator ++ tableHeader table) ++ (f ++ Fragment.ofText ")"))

/-- Common tables, the first one behind the separator and the others behind commas. -/
inductive TablesForm : String → List CommonTable → Fragment → Prop
  | nil {separator : String} : TablesForm separator [] .empty
  | cons {separator : String} {table : CommonTable} {tables : List CommonTable} {f g : Fragment}
    (h : table.Form R separator f) (htables : TablesForm "," tables g) :
    TablesForm separator (table :: tables) (f ++ g)

/-- A statement. -/
inductive Statement.Form : Statement → Fragment → Prop
  | select {w : Select Exp Source} {captured : CapturedSelect} {f : Fragment}
    (h : R.select w none captured f) : Form (.select w) f
  | withSelect {s : WithSelect} {captured : CapturedSelect} {f g : Fragment}
    (htables : TablesForm R "" s.tables f) (h : R.select s.select none captured g) :
    Form (.withSelect s)
      ((if s.recursive then Fragment.ofText "WITH RECURSIVE " else Fragment.ofText "WITH ")
        ++ (f ++ (Fragment.ofText " " ++ g)))
  | insert {s : Insert} {f : Fragment} (h : s.Form S R f) : Form (.insert s) f
  | update {s : Update} {f : Fragment} (h : s.Form S R f) : Form (.update s) f
  | delete {s : Delete} {f : Fragment} (h : s.Form S R f) : Form (.delete s) f
  | standsIn {statement : Statement} {texts : StatementTexts} {text : String}
    (h : S.env.texts = some texts) : Form statement (Fragment.ofText text)

namespace Setting

variable {S : Setting} {R : Results}

/-! ## Common tables -/

/-- A common table is written with its columns and its select. -/
theorem produces_table {separator : String} {table : CommonTable}
    (h : S.Selects R table.select) :
    S.Produces (S.selectEvents table.select) (writeTable separator table)
      (table.Form R separator) := by
  have hbody : S.Produces (S.selectEvents table.select)
      (do table.select.write; append ")") fun output => ∃ captured f,
        R.select table.select none captured f ∧ output = f ++ Fragment.ofText ")" :=
    h.produces.before fun f ⟨captured, hf⟩ => ⟨captured, f, hf, rfl⟩
  refine hbody.behind ?_
  rintro _ ⟨captured, f, hf, rfl⟩
  exact .intro hf

/-- Common tables are written one behind the other, with commas between them. -/
theorem produces_tables {tables : List CommonTable}
    (h : ∀ table ∈ tables, S.Selects R table.select) :
    S.Produces (tables.flatMap fun table => S.selectEvents table.select)
      (tables.forM (writeTable ",")) (TablesForm R "," tables) := by
  induction tables with
  | nil => exact .pure .nil
  | cons table tables ih =>
    obtain ⟨htable, htables⟩ := List.forall_mem_cons.1 h
    rw [List.flatMap_cons]
    exact (produces_table htable).seq (ih htables) fun _ _ => .cons

/-- A select with common tables is written behind them. -/
theorem produces_withSelect {statement : WithSelect}
    (htables : ∀ table ∈ statement.tables, S.Selects R table.select)
    (h : S.Selects R statement.select) :
    S.Produces (statement.tables.flatMap (fun table => S.selectEvents table.select)
      ++ S.selectEvents statement.select) (withSelectBody statement)
      (Statement.Form S R (.withSelect statement)) := by
  have hfirst : S.Produces (statement.tables.flatMap fun table => S.selectEvents table.select)
      (writeTables statement.tables) (TablesForm R "" statement.tables) := by
    revert htables
    cases statement.tables with
    | nil => exact fun _ => .pure .nil
    | cons table tables =>
      intro htables
      obtain ⟨htable, htables⟩ := List.forall_mem_cons.1 htables
      exact (produces_table htable).seq (produces_tables htables) fun _ _ => .cons
  have hlast : S.Produces (S.selectEvents statement.select)
      (do append " "; statement.select.write) fun output => ∃ captured g,
        R.select statement.select none captured g ∧ output = Fragment.ofText " " ++ g :=
    h.produces.behind fun g ⟨captured, hg⟩ => ⟨captured, g, hg, rfl⟩
  have hrest := hfirst.seq (R := fun output => ∃ f captured g,
    TablesForm R "" statement.tables f ∧ R.select statement.select none captured g
      ∧ output = f ++ (Fragment.ofText " " ++ g)) hlast fun f _ hf ⟨captured, g, hg, heq⟩ =>
        ⟨f, captured, g, hf, hg, by rw [heq]⟩
  refine hrest.behind ?_
  rintro _ ⟨f, captured, g, hf, hg, rfl⟩
  exact .withSelect hf hg

/-! ## Statements -/

/-- Every statement is written as specified. -/
theorem produces_statement (hR : R.Closed S) (statement : Statement) :
    S.Produces (statement.events S.env) statement.write (Statement.Form S R statement) := by
  have hlowers (exps : List Exp) : ∀ e ∈ exps, S.Lowers R e := fun e _ => holds hR (.exp e)
  have hevents (exps : List Exp) :
      (exps.map Node.exp).flatMap (Node.events S.env) = exps.flatMap S.eventsOf :=
    List.flatMap_map ..
  cases statement with
  | select w =>
    have hselect : S.Selects R w := holds hR (.select w)
    refine (hselect.produces.imp fun f ⟨captured, hf⟩ => .select hf).congr ?_
    rw [Statement.events, selectEvents_eq, Statement.nodes, List.flatMap_singleton]
    split
    · rfl
    next htexts => exact ((selectEvents_eq w).trans (if_neg htexts)).symm
  | withSelect s =>
    refine (produces_writeOr (produces_withSelect (R := R) (fun table _ =>
      holds hR (.select table.select)) (holds hR (.select s.select))) fun texts htexts =>
        .standsIn htexts).congr ?_
    rw [Statement.events, Statement.nodes, List.flatMap_append, List.flatMap_singleton,
      List.flatMap_map]
    rfl
  | insert s =>
    refine (produces_writeOr ((produces_insert (hlowers _)).imp fun _ => .insert) fun texts
      htexts => .standsIn htexts).congr ?_
    rw [Statement.events, Statement.nodes, hevents]
  | update s =>
    refine (produces_writeOr ((produces_update (hlowers _) (hlowers _)).imp fun _ => .update)
      fun texts htexts => .standsIn htexts).congr ?_
    rw [Statement.events, Statement.nodes, List.flatMap_append, hevents, List.flatMap_map,
      List.flatMap_map]
    rfl
  | delete s =>
    refine (produces_writeOr ((produces_delete (hlowers _)).imp fun _ => .delete) fun texts
      htexts => .standsIn htexts).congr ?_
    rw [Statement.events, Statement.nodes, hevents]

/-- Nothing is known of results. -/
def unknown : Results :=
  ⟨fun _ _ => True, fun _ _ => True, fun _ _ _ _ => True, fun _ _ _ _ => True⟩

/-- What says nothing passes from parts to wholes. -/
theorem closed_unknown : unknown.Closed S :=
  ⟨fun _ => trivial, fun _ => trivial, fun _ => trivial, fun _ => trivial⟩

/-- The output of a statement that could be written, and that all frames are closed again. -/
theorem exists_output (hR : R.Closed S) {statement : Statement} {s : State}
    (hwrite : statement.write S.env .initial = (.ok (), s)) (hfinal : S.final = s.anchors) :
    ∃ f, Statement.Form S R statement f ∧ s.buffer.depth = 0
      ∧ s.buffer.root.symbols = f.symbols := by
  have hready : S.Ready .initial := ⟨rfl, fun _ _ hbinding => nomatch hbinding⟩
  obtain ⟨f, hextends, houtcome⟩ := (produces_statement hR statement).writes .initial hready
  rw [hwrite] at hextends houtcome
  obtain ⟨hdepth, hroot⟩ := hextends.root
  exact ⟨f, houtcome.result (hfinal ▸ AnchorTable.le_refl _), hdepth, hroot⟩

end Setting

/-- Writing a statement is composed of basic steps, with the events of the statement. -/
theorem Statement.composed_write (env : Environment) (statement : Statement) :
    Composed env (statement.events env) statement.write :=
  (Setting.produces_statement (S := ⟨env, .empty, False⟩) Setting.closed_unknown
    statement).composed

/-- What is left of preparing a statement if it is allowed on the connection. -/
theorem Statement.composed_write_finish (env : Environment) (statement : Statement) :
    Composed env (statement.events env) (do statement.write; finish) :=
  (composed_write env statement).before fun _ => .finish

end EntitySql
