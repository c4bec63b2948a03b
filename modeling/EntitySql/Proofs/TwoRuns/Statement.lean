import EntitySql.Proofs.Lowering.Change
import EntitySql.Proofs.TwoRuns.Exp

/-!
# Statements in two runs

The runs agree on every statement, and at the end the anchors are replaced in the same places, by
texts that are alike. So both runs fail with the same error, or both succeed with the same
parameters and with SQL from one template (`TwoRuns.same_lower`).
-/

namespace EntitySql

open Lowering
open Sql (AnchorTable Columns Fillings Fragment Segment)

/-! ## Rendering -/

namespace Sql.Fillings

variable {F : Fillings} {t u : AnchorTable}

/-- Alike texts are alike in a row. -/
theorem Alike.join {texts texts' : List String} (h : List.Forall₂ F.Alike texts texts') :
    F.Alike (String.join texts) (String.join texts') := by
  have hfold : ∀ a b, F.Alike a b →
      F.Alike (texts.foldl (· ++ ·) a) (texts'.foldl (· ++ ·) b) := by
    induction h with
    | nil => exact fun a b hab => hab
    | cons hxy _ ih => exact fun a b hab => ih _ _ (hab.append hxy)
  exact hfold "" "" (.refl "")

/-- Alike anchors are resolved on both sides or on none. -/
theorem TablesAlike.resolved? (h : F.TablesAlike t u) {id id' : AnchorId}
    (hid : F.AnchorsAlike id id') :
    Option.Rel F.FragmentsAlike (t.resolved? id) (u.resolved? id') := by
  have hget := h.get? hid
  unfold AnchorTable.resolved?
  generalize t.get? id = entry at hget ⊢
  generalize u.get? id' = entry' at hget ⊢
  cases hget with
  | none => exact .none
  | some hentry =>
    cases hentry with
    | resolved hfg => exact .some hfg
    | reserved | captured => exact .none

/-- Alike output is rendered to alike texts, by induction on how deep anchors are followed. -/
theorem TablesAlike.renderWithin (h : F.TablesAlike t u) (bound : Nat) {f g : Fragment}
    (hfg : F.FragmentsAlike f g) :
    RelatedOutcome F.ErrorsAlike F.Alike (t.renderWithin bound f) (u.renderWithin bound g) := by
  induction bound generalizing f g with
  | zero => exact .error fun _ => rfl
  | succ bound ih =>
    -- a replacement is rendered with a smaller bound
    have hsegment {s s' : Segment} (hs : F.SegmentsAlike s s') :
        RelatedOutcome F.ErrorsAlike F.Alike (t.renderSegment bound s)
          (u.renderSegment bound s') := by
      cases hs with
      | text hab => exact .ok hab
      | @anchor id id' hid =>
        have hresolved := h.resolved? hid
        rw [AnchorTable.renderSegment, AnchorTable.renderSegment]
        generalize t.resolved? id = r at hresolved ⊢
        generalize u.resolved? id' = r' at hresolved ⊢
        cases hresolved with
        | none => exact .error (hid.error _)
        | some hfg => exact ih hfg
    rw [AnchorTable.renderWithin_succ, AnchorTable.renderWithin_succ]
    have htexts := RelatedOutcome.mapM (hfg.imp fun _ _ hs => hsegment hs)
    exact htexts.bind fun _ _ htexts => .ok (.join htexts)

/-- If the anchors have the same numbers, rendering has the same outcome. -/
theorem TablesAlike.render (h : F.TablesAlike t u) (hgap : F.gap = 0) {f g : Fragment}
    (hfg : F.FragmentsAlike f g) : SameOutcome F.Alike (t.render f) (u.render g) := by
  have hsize : u.size = t.size := h.size.trans (by rw [hgap, Nat.add_zero])
  rw [AnchorTable.render, AnchorTable.render, hsize]
  exact (h.renderWithin _ hfg).same fun _ _ he => he hgap

end Sql.Fillings

namespace TwoRuns

variable {W : TwoRuns} {σ : List Scope} {c : ClassName}

/-! ## Insertions, updates and deletions -/

/-- Runs agree on the targets of changes. -/
theorem agree_target :
    W.Agree σ (target c) (target c) fun p q => W.FragmentsAlike p.1 q.1 ∧ p.2 = q.2 := by
  have hviews : W.PrunesAlike (fun _ => .all) c := by
    rw [PrunesAlike, ite_self, ite_self]
    exact .refl .refl _
  refine (agree_className fun _ => hviews).bind fun f g hfg => ?_
  refine agree_usableMap.bind fun map _ hmap => ?_
  subst hmap
  refine .catalog_bind (Agree.ofCatalog.bind fun table _ htable => .pure ⟨hfg, htable⟩)

/-- An assignment with other texts in its value. -/
def mapAssignment (W : TwoRuns) (a : Assignment) : Assignment :=
  { a with value := a.value.mapTexts W.rename }

/-- Runs agree on assignments. -/
theorem agree_assignment {a : Assignment} (h : W.Lowers σ a.value) :
    W.Agree σ (assignment a) (assignment (W.mapAssignment a)) W.BothAlike := by
  have halign {cs cs' vs vs' : Columns} (hc : W.ColumnsAlike cs cs') (hv : W.ColumnsAlike vs vs') :
      SameOutcome W.BothAlike
        (align (.property a.property) cs a.value vs)
        (align (.property a.property) cs' (a.value.mapTexts W.rename) vs') := by
    have := same_align (.property a.property) a.value hc hv
    rwa [Exp.mapTexts] at this
  refine agree_property.bind fun cs cs' hc => h.lower.bind fun vs vs' hv => ?_
  refine (Agree.ofRule (halign hc hv)).bind fun p q hpq => ?_
  obtain ⟨columns, values⟩ := p
  obtain ⟨columns', values'⟩ := q
  have hempty : columns'.isEmpty = columns.isEmpty := by
    have hlength := hpq.1.length_eq
    cases columns <;> cases columns' <;> first | rfl | cases hlength
  dsimp only [mapAssignment]
  rw [hempty]
  split
  · exact Agree.violate.bind (R := fun _ _ => True) fun _ _ _ => .pure hpq
  · exact .pure hpq

/-- Runs agree on lists of assignments. -/
theorem agree_assignments {l : List Assignment} (h : ∀ a ∈ l, W.Lowers σ a.value) :
    W.Agree σ (l.mapM assignment) ((l.map W.mapAssignment).mapM assignment)
      (List.Forall₂ W.BothAlike) := by
  have hall : W.Agree σ ((l.map id).mapM assignment) ((l.map W.mapAssignment).mapM assignment)
      (List.Forall₂ W.BothAlike) :=
    .mapM fun a ha => agree_assignment (h a ha)
  rwa [List.map_id] at hall

/-- Runs agree on the filter on the classes of rows. -/
theorem agree_changeFilter {table : Table} :
    W.Agree σ (changeFilter c table) (changeFilter c table) Eq := by
  rw [changeFilter.eq_def]
  split
  · exact .pure rfl
  · refine .catalog_bind (Agree.ofCatalog.bind fun filter _ hfilter => ?_)
    subst hfilter
    exact .pure rfl

theorem fragmentsAlike_whereClause {o o' : Option Fragment} {filter : Option String}
    (h : Option.Rel W.FragmentsAlike o o') :
    W.FragmentsAlike (whereClause o filter) (whereClause o' filter) := by
  cases h with
  | none =>
    cases filter with
    | none => exact .empty
    | some x => exact .refl (.ofText _)
  | some hfg =>
    cases filter with
    | none => exact .append (.refl _) hfg
    | some x => exact .append (.append (.refl _) hfg.parenthesized) (.refl _)

/-- Runs agree on the conditions of changes. -/
theorem agree_changeCondition {table : Table} {condition : Option Exp}
    (h : ∀ e ∈ condition.toList, W.Lowers σ e) :
    W.Agree σ (changeCondition c table condition)
      (changeCondition c table (condition.map (·.mapTexts W.rename))) W.FragmentsAlike := by
  rw [changeCondition_eq, changeCondition_eq, optionOperand_eq, optionOperand_eq, Option.map_map]
  refine (agree_single? h).bind fun o o' ho => agree_changeFilter.bind fun filter _ hfilter => ?_
  subst hfilter
  exact .pure (fragmentsAlike_whereClause ho)

/-- Runs agree on insertions. -/
theorem agree_insertBody {s : Insert} (h : ∀ e ∈ s.values, W.Lowers σ e) :
    W.Writes σ (insertBody s)
      (insertBody { s with values := s.values.map (·.mapTexts W.rename) }) := by
  have hpairs : List.zipWith Assignment.mk s.properties (s.values.map (·.mapTexts W.rename))
      = (List.zipWith Assignment.mk s.properties s.values).map W.mapAssignment := by
    rw [List.zipWith_map_right, List.map_zipWith]
    rfl
  have hassignments : ∀ a ∈ List.zipWith Assignment.mk s.properties s.values,
      W.Lowers σ a.value := by
    intro a ha
    rw [← List.map_uncurry_zip_eq_zipWith] at ha
    obtain ⟨⟨p, e⟩, hmem, rfl⟩ := List.mem_map.1 ha
    exact h e (List.of_mem_zip hmem).2
  unfold insertBody
  refine .guard (by rw [List.length_map]) (by rw [List.length_map]) ?_
  refine agree_target.bind fun p q hpq => ?_
  obtain ⟨f, table⟩ := p
  obtain ⟨g, table'⟩ := q
  obtain ⟨hfg, rfl⟩ := hpq
  dsimp only
  rw [hpairs]
  refine (agree_assignments hassignments).bind fun as as' has => .append ?_
  have hclass : W.BothAlike (classColumn s table) (classColumn s table) := by
    unfold classColumn
    split
    · exact ⟨.nil, .nil⟩
    split
    · exact ⟨.nil, .nil⟩
    · exact ⟨.singleton (.refl _), .singleton (.refl _)⟩
  have hcolumns : W.ColumnsAlike (as.flatMap (·.1) ++ (classColumn s table).1)
      (as'.flatMap (·.1) ++ (classColumn s table).1) :=
    List.rel_append (List.rel_flatMap has fun _ _ h => h.1) hclass.1
  have hvalues : W.ColumnsAlike (as.flatMap (·.2) ++ (classColumn s table).2)
      (as'.flatMap (·.2) ++ (classColumn s table).2) :=
    List.rel_append (List.rel_flatMap has fun _ _ h => h.2) hclass.2
  have hinto : W.FragmentsAlike ("INSERT INTO " ++ f ++ "(") ("INSERT INTO " ++ g ++ "(") :=
    .append (.append (.refl _) hfg) (.refl _)
  exact (((hinto.append (.join "," hcolumns)).append (.refl _)).append
    (.join "," hvalues)).append (.refl _)

/-- Runs agree on updates. -/
theorem agree_updateBody {s : Update} (hvalues : ∀ a ∈ s.assignments, W.Lowers σ a.value)
    (hcondition : ∀ e ∈ s.condition.toList, W.Lowers σ e) :
    W.Writes σ (updateBody s)
      (updateBody
        { s with
          assignments := s.assignments.map W.mapAssignment
          condition := s.condition.map (·.mapTexts W.rename) }) := by
  refine agree_target.bind fun p q hpq => ?_
  obtain ⟨f, table⟩ := p
  obtain ⟨g, table'⟩ := q
  obtain ⟨hfg, rfl⟩ := hpq
  refine (agree_assignments hvalues).bind fun as as' has => ?_
  refine (agree_changeCondition hcondition).bind fun condition condition' hcondition => .append ?_
  have hpairs : W.ColumnsAlike
      (as.flatMap fun p => List.zipWith (fun (column value : Fragment) => column ++ "=" ++ value)
        p.1 p.2)
      (as'.flatMap fun p => List.zipWith (fun (column value : Fragment) => column ++ "=" ++ value)
        p.1 p.2) := by
    refine List.rel_flatMap has fun p q hpq => hpq.1.zipWith hpq.2 fun f g f' g' hfg hfg' => ?_
    exact (hfg.append (.refl _)).append hfg'
  have hset : W.FragmentsAlike ("UPDATE " ++ f ++ " SET ") ("UPDATE " ++ g ++ " SET ") :=
    .append (.append (.refl _) hfg) (.refl _)
  exact (hset.append (.join "," hpairs)).append hcondition

/-- Runs agree on deletions. -/
theorem agree_deleteBody {s : Delete} (h : ∀ e ∈ s.condition.toList, W.Lowers σ e) :
    W.Writes σ (deleteBody s)
      (deleteBody { s with condition := s.condition.map (·.mapTexts W.rename) }) := by
  refine agree_target.bind fun p q hpq => ?_
  obtain ⟨f, table⟩ := p
  obtain ⟨g, table'⟩ := q
  obtain ⟨hfg, rfl⟩ := hpq
  refine (agree_changeCondition h).bind fun condition condition' hcondition => .append ?_
  exact .append (.append (.refl _) hfg) hcondition

/-! ## Common tables -/

/-- A common table with other texts. -/
def mapTable (W : TwoRuns) (table : CommonTable) : CommonTable :=
  { table with select := selectTexts W.rename table.select }

/-- Runs agree on common tables. -/
theorem agree_writeTable {separator : String} {table : CommonTable}
    (h : W.Writes σ table.select.write (selectTexts W.rename table.select).write) :
    W.Writes σ (writeTable separator table) (writeTable separator (W.mapTable table)) :=
  (Agree.append (.refl _)).bind fun _ _ _ => h.bind fun _ _ _ => .append (.refl _)

/-- Runs agree on lists of common tables. -/
theorem agree_writeTables {tables : List CommonTable}
    (h : ∀ table ∈ tables,
      W.Writes σ table.select.write (selectTexts W.rename table.select).write) :
    W.Writes σ (writeTables tables) (writeTables (tables.map W.mapTable)) := by
  cases tables with
  | nil => exact .pure trivial
  | cons first rest =>
    have hrest : W.Writes σ ((rest.map id).forM (writeTable ","))
        ((rest.map W.mapTable).forM (writeTable ",")) :=
      .forM fun table htable => agree_writeTable (h table (List.mem_cons_of_mem _ htable))
    rw [List.map_id] at hrest
    exact (agree_writeTable (h first (List.mem_cons_self ..))).bind fun _ _ _ => hrest

/-- Runs agree on selects with common tables. -/
theorem agree_withSelectBody {s : WithSelect}
    (htables : ∀ table ∈ s.tables,
      W.Writes σ table.select.write (selectTexts W.rename table.select).write)
    (hselect : W.Writes σ s.select.write (selectTexts W.rename s.select).write) :
    W.Writes σ (withSelectBody s)
      (withSelectBody
        { s with
          tables := s.tables.map W.mapTable
          select := selectTexts W.rename s.select }) := by
  refine (Agree.append (.refl _)).bind fun _ _ _ => (agree_writeTables htables).bind fun _ _ _ => ?_
  exact (Agree.append (.refl _)).bind fun _ _ _ => hselect

/-! ## Statements -/

/-- The runs agree on a statement whose selects and expressions they admit. -/
theorem agree_write {statement : Statement} (h : ∀ n ∈ statement.nodes, W.Admits n) :
    W.Writes [] statement.write (statement.mapTexts W.rename).write := by
  have hnodes : ∀ n ∈ statement.nodes, W.Holds n := fun n hn => holds n (h n hn)
  -- outside of all selects there is no nested view
  have hselect {w : Select Exp Source} (hw : .select w ∈ statement.nodes) :
      W.Writes [] w.write (selectTexts W.rename w).write :=
    hnodes (.select w) hw [] fun hne => absurd rfl hne
  have hexp {e : Exp} (he : .exp e ∈ statement.nodes) (σ : List Scope) : W.Lowers σ e :=
    hnodes (.exp e) he σ
  cases statement with
  | select s => exact hselect (List.mem_cons_self ..)
  | withSelect s =>
    refine agree_writeOr (agree_withSelectBody (fun table htable => hselect ?_) (hselect ?_))
    · exact List.mem_append_left _ (List.mem_map.2 ⟨table, htable, rfl⟩)
    · exact List.mem_append_right _ (List.mem_cons_self ..)
  | insert s =>
    refine agree_writeOr (.withScope (.refl _) (agree_insertBody fun e he => hexp ?_ _))
    exact List.mem_map_of_mem he
  | update s =>
    refine agree_writeOr (.withScope (.refl _) (agree_updateBody (fun a ha => hexp ?_ _)
      fun e he => hexp ?_ _))
    · exact List.mem_append_left _ (List.mem_map.2 ⟨a, ha, rfl⟩)
    · exact List.mem_append_right _ (List.mem_map_of_mem he)
  | delete s =>
    refine agree_writeOr (.withScope (.refl _) (agree_deleteBody fun e he => hexp ?_ _))
    exact List.mem_map_of_mem he

/-- Runs agree on the SQL at the end. -/
theorem agree_finish (hgap : W.gap = 0) :
    W.Agree [] Statement.finish Statement.finish W.Alike := by
  intro count s s' hs
  have hdepth : s'.buffer.depth = s.buffer.depth := hs.buffer.depth
  unfold Statement.finish
  rw [hdepth]
  split
  · exact ⟨.error fun _ => rfl, hs⟩
  next hclosed =>
    have hframes : s.buffer.frames.length = 0 := Decidable.not_not.1 hclosed
    obtain rfl : count = 0 := Nat.le_zero.1 (hframes ▸ hs.buffer.count_le)
    have hroot : W.FragmentsAlike s.buffer.root s'.buffer.root := by
      have htop := hs.buffer.top
      rw [List.length_eq_zero_iff.1 hframes,
        List.length_eq_zero_iff.1 (hs.buffer.depth.trans hframes)] at htop
      exact (List.forall₂_cons.1 htop).1
    refine ⟨?_, { hs with buffer := ⟨rfl, Nat.le_refl _, .cons .empty .nil⟩ }⟩
    exact .ofSame ((hs.anchors.render hgap hroot).mapError _) fun _ _ => rfl

/-- The SQL comes from one template, and the parameters are the same. -/
structure LoweredAlike (W : TwoRuns) (p q : LoweredStatement) : Prop where
  sql : W.Alike p.sql q.sql
  parameters : q.parameters = p.parameters

/-- Both runs of a statement fail with the same error, or both succeed with the same parameters and
with SQL that differs only in what fills the holes. -/
theorem same_lower {statement : Statement} (h : ∀ n ∈ statement.nodes, W.Admits n)
    (hbase : W.base = 0 := by rfl) (hgap : W.gap = 0 := by rfl) :
    SameOutcome W.LoweredAlike (statement.lower W.env).1
      ((statement.mapTexts W.rename).lower W.other).1 := by
  have hkind : (statement.mapTexts W.rename).kind = statement.kind := by cases statement <;> rfl
  obtain ⟨hresult, hstate⟩ :=
    (agree_write h).bind (fun _ _ _ => agree_finish hgap) 0 _ _ (.same hbase hgap .initial)
  have hprimary : W.other.primary = W.env.primary := rfl
  rw [Statement.lower, Statement.lower, Statement.prepare, Statement.prepare, hkind, hprimary]
  by_cases hconnection : (!W.env.primary && decide (statement.kind ≠ .select)) = true
  · rw [if_pos hconnection, if_pos hconnection]
    exact .error _
  · rw [if_neg hconnection, if_neg hconnection]
    exact (hresult.same fun _ _ he => he hgap).map fun _ _ hab => ⟨hab, hstate.parameters⟩

end TwoRuns

end EntitySql
