import EntitySql.Proofs.Fitting.Select
import EntitySql.Proofs.Lowering.Statement

/-!
# Statements fit

A statement is lowered to output that fits, and of which something shows. So a statement that could
be written can be finished, and its text is as promised (`Setting.exists_finish`).
-/

namespace EntitySql.Setting

open Lowering
open Sql (AnchorTable Columns Fits Fragment Promise bracketed textSymbols)

namespace Fitting

variable {S : Setting} {p : Promise} {R : Results} {f : Fragment}

/-! ## Changes -/

/-- The target of a change is a table of the catalog. -/
theorem target (h : S.Fitting p R) {c : ClassName} {target : Fragment × Table}
    (htarget : c.TargetForm S target) :
    Fits S.final p 0 0 target.1 ∧ target.2 ∈ S.env.catalog.tables := by
  obtain ⟨map, hmap, htable, hname⟩ := htarget
  rw [hname]
  exact ⟨h.table hmap, Catalog.mem_tables_of_table htable⟩

/-- An assignment fits on both sides. -/
theorem assignment (h : S.Fitting p R) {a : Assignment} {columns : Columns × Columns}
    (hcolumns : a.Form S R columns) (hnames : ∀ x ∈ a.property.identifiers, p.Bracketable x)
    (hsuits : (Node.exp a.value).Suits p) :
    (∀ f ∈ columns.1, Fits S.final p 0 0 f) ∧ ∀ f ∈ columns.2, Fits S.final p 0 0 f := by
  obtain ⟨ls, rs, hls, hrs, halign⟩ := hcolumns
  obtain ⟨hl, hr⟩ := align halign (h.property hls hnames) (h.exp hrs hsuits)
  exact ⟨fun f hf => (hl f hf).fits, fun f hf => (hr f hf).fits⟩

/-- The class of a new row fits, if the table has a column for it. -/
theorem classColumn (h : S.Fitting p R) (statement : Insert) {table : Table}
    (htable : table ∈ S.env.catalog.tables) :
    (∀ f ∈ (Lowering.classColumn statement table).1, Fits S.final p 0 0 f)
      ∧ ∀ f ∈ (Lowering.classColumn statement table).2, Fits S.final p 0 0 f := by
  rw [Lowering.classColumn]
  split
  next => exact ⟨nofun, nofun⟩
  next column hcolumn =>
    split
    · exact ⟨nofun, nofun⟩
    · constructor
      · refine List.forall_mem_singleton.2 (.ofText (Promise.admits_bracketed ?_))
        exact h.env.catalog _ (Catalog.mem_identifiers_of_table htable
          (List.mem_append_right _ (by simp [hcolumn])))
      · exact List.forall_mem_singleton.2 (.ofText (Promise.admits_classId _))

/-- The conditions of a change fit together. -/
theorem whereClause {condition : Option Fragment} {filter : Option String}
    (hcondition : ∀ f ∈ condition, Fits S.final p 0 0 f)
    (hfilter : ∀ x ∈ filter, p.Admits 0 0 (textSymbols x)) :
    Fits S.final p 0 0 (Lowering.whereClause condition filter) := by
  have hwhere : Fits S.final p 0 0 " WHERE " := .const (by decide)
  cases condition with
  | none =>
    cases filter with
    | none => exact .empty
    | some x =>
      have hopen : p.Admits 0 1 (textSymbols " WHERE (") := Promise.admits_of_both (by decide)
      exact .ofText ((hopen.text (hfilter x rfl).anywhere).text (Promise.admits_of_both (by decide)))
  | some f =>
    cases filter with
    | none => exact hwhere.append (hcondition f rfl)
    | some x =>
      refine (hwhere.append (hcondition f rfl).parenthesized).append ?_
      exact .append (.append (.opening (by decide)) (.ofText (hfilter x rfl).anywhere))
        (.closing (by decide))

/-- The condition of a change fits if that of the statement does. -/
theorem condition (h : S.Fitting p R) {table : Table} {condition : Option Exp}
    (hf : ConditionForm R table condition f)
    (hsuits : ∀ e ∈ condition.toList, (Node.exp e).Suits p)
    (hcolumns : ∀ x ∈ table.classIdColumn, p.Bare x) : Fits S.final p 0 0 f := by
  obtain ⟨g, filter, hg, hfilter, rfl⟩ := hf
  refine whereClause (h.single? hg hsuits) fun x hx => ?_
  obtain ⟨column, hcolumn, filter, rfl⟩ := hfilter x hx
  exact filter.admits_sql_of_bare (hcolumns column hcolumn)

/-- An insertion fits if its values do. -/
theorem insertForm (h : S.Fitting p R) {statement : Insert} (hf : statement.Form S R f)
    (hnames : ∀ q ∈ statement.properties, ∀ x ∈ q.identifiers, p.Bracketable x)
    (hsuits : ∀ e ∈ statement.values, (Node.exp e).Suits p) :
    Fits S.final p 0 0 f ∧ f.Shown := by
  obtain ⟨target, assignments, -, htarget, hassignments, rfl⟩ := hf
  obtain ⟨htarget, htable⟩ := h.target htarget
  have hpairs := forall_of_forall₂ hassignments fun a ha _ hcolumns => by
    rw [← List.map_uncurry_zip_eq_zipWith] at ha
    obtain ⟨⟨q, e⟩, hmem, rfl⟩ := List.mem_map.1 ha
    exact h.assignment hcolumns (hnames q (List.of_mem_zip hmem).1)
      (hsuits e (List.of_mem_zip hmem).2)
  obtain ⟨hclass, hclass'⟩ := h.classColumn statement htable
  have hlist {l l' : Columns} (hl : ∀ f ∈ l, Fits S.final p 0 0 f)
      (hl' : ∀ f ∈ l', Fits S.final p 0 0 f) :
      Fits S.final p 1 1 (Fragment.join "," (l ++ l')) :=
    Fits.anywhere (.join (by decide) (List.forall_mem_append.2 ⟨hl, hl'⟩))
  have hcolumns := hlist (List.forall_mem_flatMap.2 fun q hq => (hpairs q hq).1) hclass
  have hvalues := hlist (List.forall_mem_flatMap.2 fun q hq => (hpairs q hq).2) hclass'
  have hinsert : Fits S.final p 0 0 "INSERT INTO " := .const (by decide)
  have hbetween : Fits S.final p 1 1 ") VALUES (" := .ofText (Promise.admits_of_both (by decide))
  have hshown : Fragment.Shown "INSERT INTO " := Fragment.shown_ofText (by decide)
  constructor
  · exact (((((hinsert.append htarget).append (.opening (by decide))).append hcolumns).append
      hbetween).append hvalues).append (.closing (by decide))
  · simp only [Fragment.shown_append, hshown, true_or]

/-- New values behind their columns fit if both do. -/
theorem newValues {assignments : List (Columns × Columns)}
    (h : ∀ q ∈ assignments,
      (∀ f ∈ q.1, Fits S.final p 0 0 f) ∧ ∀ f ∈ q.2, Fits S.final p 0 0 f) :
    Fits S.final p 0 0 (EntitySql.newValues assignments) := by
  refine .join (by decide) (List.forall_mem_flatMap.2 fun q hq => ?_)
  dsimp only
  rw [← List.map_uncurry_zip_eq_zipWith]
  refine List.forall_mem_map.2 fun r hr => ?_
  exact (((h q hq).1 _ (List.of_mem_zip hr).1).append (.const (by decide))).append
    ((h q hq).2 _ (List.of_mem_zip hr).2)

/-- An update fits if its values and its condition do. -/
theorem updateForm (h : S.Fitting p R) {statement : Update} (hf : statement.Form S R f)
    (hnames : ∀ a ∈ statement.assignments, ∀ x ∈ a.property.identifiers, p.Bracketable x)
    (hvalues : ∀ a ∈ statement.assignments, (Node.exp a.value).Suits p)
    (hcondition : ∀ e ∈ statement.condition.toList, (Node.exp e).Suits p)
    (hcolumns : ∀ table ∈ S.env.catalog.tables, ∀ x ∈ table.classIdColumn, p.Bare x) :
    Fits S.final p 0 0 f ∧ f.Shown := by
  obtain ⟨target, assignments, last, htarget, hassignments, hlast, rfl⟩ := hf
  obtain ⟨htarget, htable⟩ := h.target htarget
  have hpairs := newValues (forall_of_forall₂ hassignments fun a ha _ hform =>
    h.assignment hform (hnames a ha) (hvalues a ha))
  have hlast := h.condition hlast hcondition (hcolumns _ htable)
  have hupdate : Fits S.final p 0 0 "UPDATE " := .const (by decide)
  have hshown : Fragment.Shown "UPDATE " := Fragment.shown_ofText (by decide)
  constructor
  · exact (((hupdate.append htarget).append (.const (by decide))).append hpairs).append hlast
  · simp only [Fragment.shown_append, hshown, true_or]

/-- A deletion fits if its condition does. -/
theorem deleteForm (h : S.Fitting p R) {statement : Delete} (hf : statement.Form S R f)
    (hcondition : ∀ e ∈ statement.condition.toList, (Node.exp e).Suits p)
    (hcolumns : ∀ table ∈ S.env.catalog.tables, ∀ x ∈ table.classIdColumn, p.Bare x) :
    Fits S.final p 0 0 f ∧ f.Shown := by
  obtain ⟨target, last, htarget, hlast, rfl⟩ := hf
  obtain ⟨htarget, htable⟩ := h.target htarget
  have hlast := h.condition hlast hcondition (hcolumns _ htable)
  have hdelete : Fits S.final p 0 0 "DELETE FROM " := .const (by decide)
  have hshown : Fragment.Shown "DELETE FROM " := Fragment.shown_ofText (by decide)
  refine ⟨(hdelete.append htarget).append hlast, ?_⟩
  simp only [Fragment.shown_append, hshown, true_or]

/-! ## Common tables -/

/-- The header of a common table opens one parenthesis. -/
theorem tableHeader {table : CommonTable}
    (h : ∀ x ∈ table.name :: table.columns, p.Bracketable x) :
    p.Admits 0 1 (textSymbols (Lowering.tableHeader table)) := by
  have hname := Promise.admits_bracketed (a := 0) (h table.name (List.mem_cons_self ..))
  have hlist : p.Admits 1 1 (textSymbols (",".intercalate (table.columns.map bracketed))) := by
    refine Promise.admits_intercalate ?_ (List.forall_mem_map.2 fun column hcolumn => ?_)
    · exact (Promise.admits_of_both (a := 0) (b := 0) (by decide)).anywhere
    · exact Promise.admits_bracketed (h column (List.mem_cons_of_mem _ hcolumn))
  have hopen : p.Admits 0 1 (textSymbols "(") := Promise.admits_of_both (by decide)
  have hclose : p.Admits 1 0 (textSymbols ")") := Promise.admits_of_both (by decide)
  have hselect : p.Admits 0 1 (textSymbols " AS (") := Promise.admits_of_both (by decide)
  rw [Lowering.tableHeader]
  split
  · exact (hname.text .nil).text hselect
  · exact (hname.text ((hopen.text hlist).text hclose)).text hselect

/-- Common tables fit if their names may stand in brackets and their selects fit. -/
theorem tables (h : S.Fitting p R) {separator : String} {tables : List CommonTable}
    (hf : TablesForm R separator tables f) (hseparator : Fragment.Fixed 0 0 separator)
    (hnames : ∀ table ∈ tables, ∀ x ∈ table.name :: table.columns, p.Bracketable x)
    (hsuits : ∀ table ∈ tables, (Node.select table.select).Suits p) : Fits S.final p 0 0 f := by
  induction hf with
  | nil => exact .empty
  | cons htable _ ih =>
    obtain ⟨hname, hnames⟩ := List.forall_mem_cons.1 hnames
    obtain ⟨hselect, hselects⟩ := List.forall_mem_cons.1 hsuits
    obtain ⟨hf⟩ := htable
    have hheader := (Fits.const (t := S.final) hseparator).append (.ofText (tableHeader hname))
    have hclose : Fits S.final p 1 0 ")" := .closing (by decide)
    have hbody := ((h.select hf hselect).2 nofun).1.anywhere.append hclose
    exact (hheader.append hbody).append (ih (by decide) hnames hselects)

/-! ## Statements -/

/-- A statement fits, and something of it shows. -/
theorem statementForm (h : S.Fitting p R) {statement : Statement}
    (hf : Statement.Form S R statement f) (hsuits : statement.Suits p S.env.catalog) :
    Fits S.final p 0 0 f ∧ (p.given → f.Shown) := by
  have hnodes := hsuits.nodes
  have hidentifiers := hsuits.identifiers
  cases hf with
  | select hw => exact (h.select hw (hnodes _ (List.mem_cons_self ..))).2 nofun
  | @withSelect s _ _ _ htables hw =>
    have htables := h.tables htables (by decide) (fun table htable x hx =>
      hidentifiers x (List.mem_flatMap.2 ⟨table, htable, hx⟩)) fun table htable =>
        hnodes _ (List.mem_append_left _ (List.mem_map_of_mem htable))
    have hw := (h.select hw (hnodes _ (List.mem_append_right _ (List.mem_cons_self ..)))).2 nofun
    have hwith : Fits S.final p 0 0 (if s.recursive then Fragment.ofText "WITH RECURSIVE "
        else Fragment.ofText "WITH ")
        ∧ (if s.recursive then Fragment.ofText "WITH RECURSIVE "
          else Fragment.ofText "WITH ").Shown := by
      split
      · exact ⟨.const (by decide), Fragment.shown_ofText (by decide)⟩
      · exact ⟨.const (by decide), Fragment.shown_ofText (by decide)⟩
    exact ⟨hwith.1.append (htables.append (.append (.const (by decide)) hw.1)), fun _ =>
      Fragment.shown_append.2 (.inl hwith.2)⟩
  | insert hf =>
    obtain ⟨hfits, hshown⟩ := h.insertForm hf (fun q hq x hx =>
      hidentifiers x (List.mem_flatMap.2 ⟨q, hq, hx⟩)) fun e he =>
        hnodes _ (List.mem_map_of_mem he)
    exact ⟨hfits, fun _ => hshown⟩
  | update hf =>
    obtain ⟨hfits, hshown⟩ := h.updateForm hf (fun a ha x hx =>
      hidentifiers x (List.mem_flatMap.2 ⟨a, ha, hx⟩)) (fun a ha =>
        hnodes _ (List.mem_append_left _ (List.mem_map_of_mem ha))) (fun e he =>
          hnodes _ (List.mem_append_right _ (List.mem_map_of_mem he))) (hsuits.classColumns nofun)
    exact ⟨hfits, fun _ => hshown⟩
  | delete hf =>
    obtain ⟨hfits, hshown⟩ := h.deleteForm hf (fun e he => hnodes _ (List.mem_map_of_mem he))
      (hsuits.classColumns nofun)
    exact ⟨hfits, fun _ => hshown⟩
  | standsIn htexts =>
    have hgiven : ¬p.given := fun hp => by
      rw [(h.env.standard hp).texts] at htexts
      cases htexts
    exact ⟨.ofText fun hp => absurd hp hgiven, fun hp => absurd hp hgiven⟩

end Fitting

variable {S : Setting} {p : Promise} {statement : Statement} {s : State}

/-- A statement that could be written can be finished. Its text is as promised, and under the
promise something of it shows. -/
theorem exists_finish (henv : S.env.Suits p) (horderly : p.given → S.orderly)
    (hsuits : statement.Suits p S.env.catalog)
    (hwrite : statement.write S.env .initial = (.ok (), s)) (hfinal : S.final = s.anchors) :
    ∃ sql, (Statement.finish S.env s).1 = .ok sql ∧ p.Admits 0 0 (textSymbols sql)
      ∧ (p.given → ∃ c ∈ sql.toList, Text.isBlank c = false) := by
  obtain ⟨f, hf, hdepth, hroot⟩ := exists_output (closed_fitting henv horderly) hwrite hfinal
  obtain ⟨hfits, hshown⟩ := (fitting_fitting henv horderly).statementForm hf hsuits
  obtain ⟨text, htext, hadmits, hchars⟩ := (hfits.congr hroot.symm).renderWithin
  refine ⟨text, ?_, hadmits, fun hp => ?_⟩
  · rw [Statement.finish, if_neg (not_not_intro hdepth)]
    show (s.anchors.render s.buffer.root).mapError _ = _
    rw [AnchorTable.render, ← hfinal, htext]
    rfl
  · obtain ⟨c, hc, hblank⟩ := hshown hp
    exact ⟨c, hchars c (hroot ▸ hc), hblank⟩

end EntitySql.Setting
