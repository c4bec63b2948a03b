import EntitySql.Proofs.Lowering.Statement
import EntitySql.Proofs.Sql.Shown

/-!
# The names of parameters in results

The names of the parameters that are lowered with a part of a statement are shown by what the part
is lowered to (`Setting.showing`). Almost all forms show what their parts show. The exceptions are
two: a comparison of columns leaves out what shows no name, and in a comparison with the rows of a
subquery the operand and the condition of the subquery go into the anchor, which the subquery shows.
-/

namespace EntitySql

open Lowering
open Sql (AnchorId AnchorTable CapturedSelect Columns Fragment Predicate)
open Sql.AnchorTable

/-- A database name starts with a colon. -/
theorem Parameter.distinctive_of_mem_nativeNames {p : Parameter} {x : String}
    (h : x ∈ p.nativeNames) : Sql.Distinctive x := by
  obtain ⟨i, -, rfl⟩ := List.mem_map.1 h
  have hcolon : ':' ∈ (p.key.nativeName i).toList := by
    unfold ParameterKey.nativeName
    simp
  exact ⟨':', hcolon, by decide, by decide⟩

namespace Setting

variable {S : Setting} {e lhs rhs : Exp} {exps : List Exp} {n : Node} {f g : Fragment}
  {columns : Columns}

/-! ## The names below a node -/

/-- The names of the parameters that are lowered with a node. -/
def names (S : Setting) (n : Node) : Set String :=
  {x | ∃ p ∈ n.parameters S.env.functions, x ∈ p.nativeNames}

/-- The names of the parameters that are lowered with expressions. -/
def namesOf (S : Setting) (exps : List Exp) : Set String :=
  {x | ∃ e ∈ exps, x ∈ S.names (.exp e)}

/-- The names below a node are its own ones and those of what is lowered for it. -/
theorem mem_names_iff {x : String} : x ∈ S.names n
    ↔ (∃ p ∈ n.ownParameters, x ∈ p.nativeNames)
      ∨ ∃ m ∈ n.lowered S.env.functions, x ∈ S.names m := by
  simp only [names, Set.mem_ofPred_eq, Node.parameters_eq S.env.functions n, List.mem_append,
    List.mem_flatMap, or_and_right, exists_or]
  exact or_congr_right ⟨fun ⟨p, ⟨m, hm, hp⟩, hx⟩ => ⟨m, hm, p, hp, hx⟩,
    fun ⟨m, hm, p, hp, hx⟩ => ⟨p, ⟨m, hm, hp⟩, hx⟩⟩

/-- A node that is no parameter has the names of its parts. -/
theorem names_subset {T : Set String} (hown : n.ownParameters = [])
    (h : ∀ m ∈ n.lowered S.env.functions, S.names m ⊆ T) : S.names n ⊆ T := by
  intro x hx
  rcases mem_names_iff.1 hx with ⟨p, hp, -⟩ | ⟨m, hm, hx⟩
  · rw [hown] at hp
    cases hp
  · exact h m hm hx

/-- The names below a node that has none itself are those of its expressions. -/
theorem names_subset_of_exps {T : Set String} (exps : List Exp) (hown : n.ownParameters = [])
    (hlowered : n.lowered S.env.functions = exps.map .exp) (h : S.namesOf exps ⊆ T) :
    S.names n ⊆ T := by
  refine names_subset hown fun m hm => ?_
  rw [hlowered] at hm
  obtain ⟨e, he, rfl⟩ := List.mem_map.1 hm
  exact fun x hx => h ⟨e, he, hx⟩

/-- A bare `NULL` names no parameters. -/
theorem names_of_isNull (h : e.isNull = true) : S.names (.exp e) = ∅ := by
  cases e with
  | literal l => exact Set.subset_empty_iff.1 (names_subset rfl nofun)
  | _ => cases h

@[simp]
theorem namesOf_nil : S.namesOf [] = ∅ := by
  simp [namesOf]

@[simp]
theorem namesOf_cons : S.namesOf (e :: exps) = S.names (.exp e) ∪ S.namesOf exps := by
  ext x
  simp [namesOf]

/-- The names of two lists are those of both. -/
@[simp]
theorem namesOf_append {exps' : List Exp} :
    S.namesOf (exps ++ exps') = S.namesOf exps ∪ S.namesOf exps' := by
  ext x
  simp [namesOf, or_and_right, exists_or]

/-! ## What results show -/

/-- Results show the names of the parameters below. A select shows the anchor that stands in it. If
the anchor shows the condition in turn, the names are all there. -/
def showing (S : Setting) : Results where
  exp e columns := S.names (.exp e) ⊆ S.final.shownAll columns
  source source f := S.names (.source source) ⊆ S.final.shown f
  core c anchor captured f := (∀ id ∈ anchor, S.final.shown (.ofAnchor id) ⊆ S.final.shown f)
    ∧ ((∀ id ∈ anchor, S.final.shownAll captured.condition.toList ⊆ S.final.shown (.ofAnchor id)) →
      S.names (.core c) ⊆ S.final.shown f)
  select w anchor captured f := (∀ id ∈ anchor, S.final.shown (.ofAnchor id) ⊆ S.final.shown f)
    ∧ ((∀ id ∈ anchor, S.final.shownAll captured.condition.toList ⊆ S.final.shown (.ofAnchor id)) →
      S.names (.select w) ⊆ S.final.shown f)

namespace showing

/-- The only column of an operand shows its names. -/
theorem single (h : S.showing.single e f) : S.names (.exp e) ⊆ S.final.shown f :=
  shownAll_singleton (t := S.final) ▸ h

/-- The column of an operand that may be missing shows its names. -/
theorem single? {exp : Option Exp} {column : Option Fragment}
    (h : Option.Rel S.showing.single exp column) :
    S.namesOf exp.toList ⊆ S.final.shownAll column.toList := by
  cases h with
  | none => simp
  | some h => simpa using single h

/-- Results that belong to the elements of a list show what the elements show. -/
theorem forall₂ {α β : Type} {P : α → β → Prop} {l : List α} {l' : List β}
    (exps : α → List Exp) (columns : β → Columns) (h : List.Forall₂ P l l')
    (hP : ∀ a b, P a b → S.namesOf (exps a) ⊆ S.final.shownAll (columns b)) :
    S.namesOf (l.flatMap exps) ⊆ S.final.shownAll (l'.flatMap columns) := by
  induction h with
  | nil => simp
  | cons hab _ ih =>
    rw [List.flatMap_cons, List.flatMap_cons, namesOf_append, shownAll_append]
    exact Set.union_subset_union (hP _ _ hab) ih

/-- The columns of operands show their names. -/
theorem singles {fs : List Fragment} (h : List.Forall₂ S.showing.single exps fs) :
    S.namesOf exps ⊆ S.final.shownAll fs := by
  have hall := forall₂ (fun e => [e]) (fun f => [f]) h fun e f hf => by
    simpa using single hf
  simpa using hall

/-- Aligning two values gives up only the columns of a bare `NULL`. -/
theorem aligned {pair : Columns × Columns} (h : S.showing.aligned lhs rhs pair) :
    pair.1.length = pair.2.length
      ∧ S.namesOf [lhs, rhs] ⊆ S.final.shownAll pair.1 ∪ S.final.shownAll pair.2 := by
  obtain ⟨ls, rs, hls, hrs, halign⟩ := h
  obtain ⟨hlength, hl, hr⟩ := eq_of_align halign
  refine ⟨hlength, ?_⟩
  have hside {e : Exp} {columns aligned : Columns} (h : S.showing.exp e columns)
      (heq : e.isNull = false → aligned = columns) :
      S.names (.exp e) ⊆ S.final.shownAll aligned := by
    cases hnull : e.isNull with
    | true => simp [names_of_isNull hnull]
    | false => exact heq hnull ▸ h
  simpa using Set.union_subset_union (hside hls hl) (hside hrs hr)

/-- A bound of a range shows its names, also if it is widened. -/
theorem bound {width : Nat} (h : S.showing.bound e width columns) :
    S.names (.exp e) ⊆ S.final.shownAll columns := by
  rcases h with h | ⟨hnull, -⟩
  · exact h
  · simp [names_of_isNull hnull]

/-- What may be missing at the end shows its names. -/
theorem lastPart (keyword : String) {exp : Option Exp} {last : Option Fragment}
    (h : Option.Rel S.showing.single exp last) :
    S.namesOf exp.toList ⊆ S.final.shown (EntitySql.lastPart keyword last) := by
  cases h with
  | none => simp
  | some h =>
    simp only [Option.toList_some, namesOf_cons, namesOf_nil, Set.union_empty]
    exact (single h).trans shown_append_right

/-! ## Calls and windows -/

/-- A branch shows the names in its condition and its value. -/
theorem caseBranch {branch : CaseBranch Exp} (h : branch.Form S.showing f) :
    S.namesOf branch.exps ⊆ S.final.shown f := by
  obtain ⟨condition, value, hcondition, hvalue, rfl⟩ := h
  have hcondition := single hcondition
  have hvalue := single hvalue
  refine subset_trans ?_ (shownAll_subset_foldl " WHEN " [condition, " THEN ", value])
  simp only [CaseBranch.exps, namesOf_cons, namesOf_nil, shownAll_cons]
  tauto_set

/-- A call shows the names in the arguments that it writes. -/
theorem call {c : FunctionCall Exp} {lowered : LoweredCall} (h : c.Form S S.showing lowered) :
    S.namesOf (c.writtenArgs S.env.functions) ⊆ S.final.shown lowered.call := by
  cases h with
  | @written name _ args _ hargs =>
    refine subset_trans ?_ (shownAll_subset_foldl (name ++ "(" ++ c.quantifier.sql) [args, ")"])
    simp only [shownAll_cons]
    have hshown : S.namesOf (c.writtenArgs S.env.functions) ⊆ S.final.shown args := by
      cases hargs with
      | star hstar => simp [FunctionCall.writtenArgs, hstar]
      | listed _ hargs =>
        refine subset_trans ?_ ((singles hargs).trans shownAll_subset_join)
        rintro x ⟨e, he, hx⟩
        exact ⟨e, c.writtenArgs_subset _ he, hx⟩
    tauto_set
  | julianDay hfind hform =>
    simp [FunctionCall.writtenArgs, hfind, FunctionDef.writesArguments, hform]

/-- What is appended to a call hides nothing. -/
theorem sql {c : FunctionCall Exp} {lowered : LoweredCall} (h : c.Form S S.showing lowered) :
    S.namesOf (c.writtenArgs S.env.functions) ⊆ S.final.shown lowered.sql :=
  (call h).trans shown_append_left

/-- A key of an order shows its names in every column. -/
theorem sortKey {key : SortKey Exp} (h : key.Form S.showing columns) :
    S.namesOf [key.exp] ⊆ S.final.shownAll columns := by
  obtain ⟨cs, hcs, rfl⟩ := h
  simpa using subset_trans hcs (shownAll_subset_map fun _ => shown_append_left)

/-- A key of a partition shows its names in every column. -/
theorem partitionKey {key : PartitionKey Exp} (h : key.Form S.showing columns) :
    S.namesOf [key.exp] ⊆ S.final.shownAll columns := by
  obtain ⟨cs, hcs, rfl⟩ := h
  rw [namesOf_cons, namesOf_nil, Set.union_empty, PartitionKey.collated]
  split
  · exact hcs
  · exact subset_trans hcs (shownAll_subset_map fun _ => shown_append_left)

/-- The start of a frame shows the names in its offset. -/
theorem frameStart {start : FrameStart Exp} (h : start.Form S.showing f) :
    S.namesOf start.exps ⊆ S.final.shown f := by
  cases h with
  | currentRow | unboundedPreceding => simp [FrameStart.exps]
  | preceding hoffset => simpa [FrameStart.exps] using subset_trans (single hoffset) shown_append_left

/-- A bound of a frame shows the names in its offset. -/
theorem frameBound {bound : FrameBound Exp} (h : bound.Form S.showing f) :
    S.namesOf bound.exps ⊆ S.final.shown f := by
  cases h with
  | currentRow | unboundedPreceding | unboundedFollowing => simp [FrameBound.exps]
  | preceding hoffset | following hoffset =>
    simpa [FrameBound.exps] using subset_trans (single hoffset) shown_append_left

/-- The extent of a frame shows the names in its bounds. -/
theorem frameExtent {extent : FrameExtent Exp} (h : extent.Form S.showing f) :
    S.namesOf extent.exps ⊆ S.final.shown f := by
  cases h with
  | start hstart => exact frameStart hstart
  | @between _ _ first second hfirst hsecond =>
    have hfirst := frameBound hfirst
    have hsecond := frameBound hsecond
    refine subset_trans ?_ (shownAll_subset_foldl "BETWEEN " [first, " AND ", second])
    simp only [FrameExtent.exps, namesOf_append, shownAll_cons]
    tauto_set

/-- Keys behind a keyword show what the keys show. -/
theorem keyPart {α : Type} {P : α → Columns → Prop} {keys : List α} {lists : List Columns}
    {exp : α → Exp} (keyword : String) (h : List.Forall₂ P keys lists)
    (hP : ∀ key columns, P key columns → S.namesOf [exp key] ⊆ S.final.shownAll columns) :
    S.namesOf (keys.map exp) ⊆ S.final.shownAll (EntitySql.keyPart keyword lists) := by
  have hlists := forall₂ (fun key => [exp key]) id h hP
  rw [List.flatMap_id, ← List.map_eq_flatMap] at hlists
  rw [EntitySql.keyPart]
  split
  next hempty =>
    rw [List.isEmpty_iff.1 hempty, List.flatten_nil] at hlists
    exact hlists
  next =>
    rw [shownAll_singleton]
    exact hlists.trans (shownAll_subset_join.trans shown_append_right)

/-- A window shows the names in its keys and its frame. -/
theorem windowSpec {window : WindowSpec Exp} (h : window.Form S.showing f) :
    S.namesOf window.exps ⊆ S.final.shown f := by
  obtain ⟨partitionBy, orderBy, frame, hpartitionBy, horderBy, hframe, rfl⟩ := h
  have hpartitionBy := keyPart "PARTITION BY " hpartitionBy fun _ _ => partitionKey
  have horderBy := keyPart "ORDER BY " horderBy fun _ _ => sortKey
  have hframe : S.namesOf (window.frame.toList.flatMap (·.extent.exps))
      ⊆ S.final.shownAll frame.toList := by
    generalize window.frame = extent at hframe
    cases hframe with
    | none => simp
    | some hf =>
      obtain ⟨extent, hextent, rfl⟩ := hf
      simpa using (frameExtent hextent).trans (shown_append_right.trans shown_append_left)
  refine subset_trans ?_ shownAll_subset_join
  simp only [WindowSpec.exps, namesOf_append, shownAll_append]
  tauto_set

/-- The window of a call shows its names; a name of a window holds none. -/
theorem windowOver {overWindow : WindowOver Exp} (h : overWindow.Form S.showing f) :
    S.namesOf overWindow.exps ⊆ S.final.shown f := by
  cases h with
  | spec hwindow => exact (windowSpec hwindow).trans shown_parenthesized
  | name => simp [WindowOver.exps]

/-! ## Conditions -/

/-- A range test shows all columns, since none is left over. -/
theorem rangeTest {operand lower upper : Columns} {negated : Bool}
    (hlower : lower.length = operand.length) (hupper : upper.length = operand.length) :
    S.final.shownAll operand ∪ S.final.shownAll lower ∪ S.final.shownAll upper
      ⊆ S.final.shown (Lowering.rangeTest operand lower upper negated) := by
  have hzip : (lower.zip upper).length = operand.length := by
    rw [List.length_zip, hlower, hupper, Nat.min_self]
  intro x hx
  obtain ⟨⟨column, lo, hi⟩, hmem, hx⟩ : ∃ triple ∈ operand.zip (lower.zip upper),
      x ∈ S.final.shown triple.1 ∪ S.final.shown triple.2.1 ∪ S.final.shown triple.2.2 := by
    rcases hx with (⟨f, hf, hx⟩ | ⟨f, hf, hx⟩) | ⟨f, hf, hx⟩
    · obtain ⟨bounds, hmem⟩ := exists_mem_zip_left (le_of_eq hzip.symm) hf
      exact ⟨_, hmem, .inl (.inl hx)⟩
    · obtain ⟨g, hg⟩ := exists_mem_zip_left (le_of_eq (hlower.trans hupper.symm)) hf
      obtain ⟨column, hmem⟩ := exists_mem_zip_right (le_of_eq hzip) hg
      exact ⟨_, hmem, .inl (.inr hx)⟩
    · obtain ⟨g, hg⟩ := exists_mem_zip_right (le_of_eq (hupper.trans hlower.symm)) hf
      obtain ⟨column, hmem⟩ := exists_mem_zip_right (le_of_eq hzip) hg
      exact ⟨_, hmem, .inr hx⟩
  rw [Lowering.rangeTest]
  generalize hterms : (operand.zip (lower.zip upper)).map _ = terms
  have hshown : x ∈ S.final.shownAll terms := by
    refine ⟨_, hterms ▸ List.mem_map_of_mem hmem, ?_⟩
    repeat refine mem_shown_append fun _ => ?_
    simp only [Set.mem_union] at hx
    tauto
  split
  next => exact shownAll_singleton.subset hshown
  next => exact shown_parenthesized (shownAll_subset_join hshown)

/-- Every column of the value is compared with some column of the subquery. -/
theorem exists_quantifiedPair {operand columns : Columns} {pairs : List (Fragment × Fragment)}
    (h : quantifiedPairs operand columns = .ok pairs) {f : Fragment} (hf : f ∈ operand) :
    ∃ g, (f, g) ∈ pairs := by
  rw [quantifiedPairs.eq_def] at h
  split at h
  · cases h
  next hnonempty =>
    split at h
    next hlength =>
      obtain rfl := Except.ok.inj h
      exact exists_mem_zip_left (le_of_eq hlength) hf
    next =>
      split at h
      next column =>
        obtain rfl := Except.ok.inj h
        obtain rfl := List.mem_singleton.1 hf
        obtain ⟨g, hg⟩ := List.exists_mem_of_ne_nil columns (by simpa using hnonempty)
        exact ⟨g, List.mem_map_of_mem hg⟩
      next => cases h

/-- The condition of a subquery shows the value that is compared, and what the subquery states. -/
theorem quantifiedCondition {operand : Columns} {op : ComparisonOperator}
    {quantifier : Quantifier} {captured : CapturedSelect}
    (h : Lowering.quantifiedCondition operand op quantifier captured = .ok f) :
    S.final.shownAll operand ⊆ S.final.shown f
      ∧ S.final.shownAll captured.condition.toList ⊆ S.final.shown f := by
  obtain ⟨pairs, hpairs, hf⟩ := Except.bind_eq_ok.1 h
  have hoperand : S.final.shownAll operand
      ⊆ S.final.shown (Predicate.quantified pairs op quantifier).sql := by
    rintro x ⟨g, hg, hx⟩
    obtain ⟨column, hpair⟩ := exists_quantifiedPair hpairs hg
    exact shown_quantified hpair hx
  split at hf
  next condition hcondition =>
    obtain rfl := Except.ok.inj hf
    rw [hcondition, Option.toList_some, shownAll_singleton]
    exact ⟨hoperand.trans shown_append_right,
      shown_parenthesized.trans (shown_append_left.trans shown_append_left)⟩
  next hcondition =>
    obtain rfl := Except.ok.inj hf
    rw [hcondition, Option.toList_none, shownAll_nil]
    exact ⟨hoperand, Set.empty_subset _⟩

/-- The output of a select shows its names. -/
theorem output {w : Select Exp Source} {captured : CapturedSelect}
    (h : S.showing.output w none captured f) : S.names (.select w) ⊆ S.final.shown f := by
  obtain ⟨g, hg, hsymbols⟩ := h
  exact (hg.2 nofun).trans (shown_congr hsymbols)

/-- The operand and the condition of the subquery go into the anchor, and the anchor stands in the
subquery. -/
theorem quantified {operand : Exp} {op : ComparisonOperator} {quantifier : Quantifier}
    {w : Select Exp Source} {id : AnchorId} {captured : CapturedSelect} {condition : Fragment}
    (h : S.showing.exp operand columns) (hw : S.showing.output w (some id) captured f)
    (hcondition : Lowering.quantifiedCondition columns op quantifier captured = .ok condition)
    (hid : S.final.resolved? id = some condition) :
    S.names (.exp (.quantified operand op quantifier w)) ⊆ S.final.shown f := by
  obtain ⟨g, ⟨hanchor, hnames⟩, hsymbols⟩ := hw
  obtain ⟨hoperand, hcaptured⟩ := quantifiedCondition hcondition
  have hshown := shown_ofAnchor hid
  have hall := hnames fun i hi => Option.some.inj hi ▸ hcaptured.trans hshown
  have hvalue := h.trans (hoperand.trans (hshown.trans (hanchor id rfl)))
  refine subset_trans (names_subset rfl fun m hm => ?_) (shown_congr hsymbols)
  obtain rfl | rfl : m = .exp operand ∨ m = .select w := by
    simpa [Node.lowered, Node.parts, Exp.parts] using hm
  · exact hvalue
  · exact hall

/-! ## Expressions -/

/-- A conversion shows the column that it converts. -/
theorem castColumn {column : Fragment} {type : PrimitiveType} :
    S.final.shown column ⊆ S.final.shown (Lowering.castColumn column type) := by
  cases type <;> exact shown_append_right.trans shown_append_left

/-- A filter shows the names in its condition. -/
theorem filterPart {filter : Option Exp} {condition : Option Fragment}
    (h : Option.Rel S.showing.single filter condition) :
    S.namesOf filter.toList ⊆ S.final.shown (EntitySql.filterPart condition) := by
  cases h with
  | none => simp
  | some h =>
    simp only [Option.toList_some, namesOf_cons, namesOf_nil, Set.union_empty]
    exact (single h).trans (shown_append_right.trans shown_append_left)

/-- An expression with a single column shows the names of its parts. -/
theorem of_exps (exps : List Exp) (hown : (Node.exp e).ownParameters = [])
    (hlowered : (Node.exp e).lowered S.env.functions = exps.map .exp)
    (h : S.namesOf exps ⊆ S.final.shown f) : S.showing.exp e [f] :=
  names_subset_of_exps exps hown hlowered (shownAll_singleton (t := S.final) ▸ h)

/-- An expression with one operand shows the names of the operand. -/
theorem of_operand (operand : Exp) (hown : (Node.exp e).ownParameters = [])
    (hlowered : (Node.exp e).lowered S.env.functions = [.exp operand])
    (h : S.names (.exp operand) ⊆ S.final.shownAll columns) : S.showing.exp e columns :=
  names_subset_of_exps [operand] hown hlowered (by simpa using h)

/-- An expression that is written in pieces shows the names of its parts if the pieces do. -/
theorem of_pieces (exps : List Exp) (first : Fragment) (pieces : List Fragment)
    (hown : (Node.exp e).ownParameters = [])
    (hlowered : (Node.exp e).lowered S.env.functions = exps.map .exp)
    (h : S.namesOf exps ⊆ S.final.shownAll (first :: pieces)) :
    S.showing.exp e [pieces.foldl (· ++ ·) first] :=
  of_exps exps hown hlowered (h.trans (shownAll_subset_foldl first pieces))

/-- The branches of a case distinction show the names in them. -/
theorem caseBranches {branches : List (CaseBranch Exp)} {fs : List Fragment}
    (h : List.Forall₂ (CaseBranch.Form S.showing) branches fs) :
    S.namesOf (branches.flatMap CaseBranch.exps) ⊆ S.final.shown (Fragment.join "" fs) := by
  have hbranches := forall₂ CaseBranch.exps (fun f => [f]) h fun _ _ h => by
    rw [shownAll_singleton]
    exact caseBranch h
  rw [List.flatMap_singleton'] at hbranches
  exact hbranches.trans shownAll_subset_join

/-- An expression shows its names if its parts do, one kind at a time. -/
theorem expForm (horderly : S.orderly) (h : Exp.Form S S.showing e columns) :
    S.showing.exp e columns := by
  cases h with
  | null | literal | property | enumerator | extractProperty | extractInstance =>
    exact names_subset rfl nofun
  | @parameter p names hnames =>
    intro x hx'
    rcases mem_names_iff.1 hx' with ⟨q, hq, hx⟩ | ⟨m, hm, -⟩
    · obtain rfl := List.mem_singleton.1 hq
      rw [hnames horderly]
      exact ⟨_, List.mem_map_of_mem hx,
        mem_shown_ofText (Parameter.distinctive_of_mem_nativeNames hx)⟩
    · cases hm
  | @castNull operand _ hnull =>
    exact of_operand operand rfl rfl (by simp [names_of_isNull hnull])
  | @castSame operand _ _ _ hcolumns => exact of_operand operand rfl rfl hcolumns
  | @cast operand _ _ _ _ hcolumns =>
    exact of_operand operand rfl rfl
      (subset_trans hcolumns (shownAll_subset_map fun _ => castColumn))
  | @arithmetic lhs rhs _ _ _ pair hpair =>
    obtain ⟨hlength, hnames⟩ := aligned hpair
    refine names_subset_of_exps [lhs, rhs] rfl rfl (hnames.trans ?_)
    exact shownAll_subset_zipWith hlength
      (fun _ _ => (shown_append_left.trans shown_append_left).trans shown_parenthesizedIf)
      fun _ _ => shown_append_right.trans shown_parenthesizedIf
  | @sign _ operand _ _ hcolumns =>
    exact of_operand operand rfl rfl
      (subset_trans hcolumns (shownAll_subset_map fun _ => shown_append_right))
  | call hc => exact of_exps _ rfl rfl (sql hc)
  | @case _ _ _ fs last hbranches hotherwise =>
    have hbranches := caseBranches hbranches
    have hotherwise := lastPart " ELSE " hotherwise
    refine of_pieces _ "CASE"
      [Fragment.join "" fs, EntitySql.lastPart " ELSE " last, " END"] rfl rfl ?_
    simp only [namesOf_append, shownAll_cons]
    tauto_set
  | @iif condition consequent alternative _ c t e hc ht he =>
    have hc := single hc
    have ht := single ht
    have he := single he
    refine of_pieces [condition, consequent, alternative] "IIF(" [c, ",", t, ",", e, ")"] rfl rfl ?_
    simp only [namesOf_cons, namesOf_nil, shownAll_cons]
    tauto_set
  | @navigation value id relationship declared hid hrelationship =>
    have hid := single hid
    have hrelationship := single? hrelationship
    refine names_subset_of_exps _ rfl rfl ?_
    have hlast : S.final.shownAll relationship.toList
        ⊆ S.final.shown (relationship.getD declared.text) := by
      cases relationship <;> simp
    simp only [namesOf_cons, shownAll_cons]
    tauto_set
  | subquery hw =>
    refine names_subset rfl (List.forall_mem_singleton.2 ?_)
    rw [shownAll_singleton]
    exact (output hw).trans shown_parenthesized
  | list hvalues => exact of_exps _ rfl rfl ((singles hvalues).trans
      (shownAll_subset_join.trans shown_parenthesized))
  | @window c filter overWindow lowered condition f hc hfilter hover =>
    have hc := call hc
    have hfilter := filterPart hfilter
    have hover := windowOver hover
    refine of_pieces _ lowered.call
      [EntitySql.filterPart condition, " OVER ", f, lowered.suffix] rfl rfl ?_
    simp only [namesOf_append, shownAll_cons]
    tauto_set
  | @typeTest lhs _ entries _ f negation filter hf _ =>
    have hf := single hf
    have hnone : S.names (.exp (.typeList entries)) = ∅ :=
      Set.subset_empty_iff.1 (names_subset rfl nofun)
    refine of_exps [lhs, .typeList entries] rfl rfl ?_
    simp only [namesOf_cons, namesOf_nil, hnone, Set.union_empty]
    exact hf.trans (shown_append_left.trans shown_parenthesizedIf)
  | @boolean lhs rhs op _ f g hl hr =>
    have hl := single hl
    have hr := single hr
    refine of_exps [lhs, rhs] rfl rfl (subset_trans (subset_trans ?_
      (shownAll_subset_foldl f [" " ++ op.sql ++ " ", g])) shown_parenthesizedIf)
    simp only [namesOf_cons, namesOf_nil, shownAll_cons]
    tauto_set
  | @compound lhs rhs _ _ pair hpair =>
    obtain ⟨hlength, hnames⟩ := aligned hpair
    exact of_exps [lhs, rhs] rfl rfl (hnames.trans (shownAll_subset_compound hlength))
  | @not operand _ f hf =>
    refine of_operand operand rfl rfl ?_
    rw [shownAll_singleton]
    exact (single hf).trans (shown_append_right.trans shown_parenthesizedIf)
  | @between operand lower upper _ columns lo hi hcolumns hlo hhi hlower hupper =>
    have hcolumns : S.names (.exp operand) ⊆ S.final.shownAll columns := hcolumns
    have hlo := bound hlo
    have hhi := bound hhi
    refine of_exps [operand, lower, upper] rfl rfl (subset_trans ?_ (rangeTest hlower hupper))
    simp only [namesOf_cons, namesOf_nil]
    tauto_set
  | @like operand pattern escape negated f g last hf hg hescape =>
    have hf := single hf
    have hg := single hg
    have hescape := lastPart " ESCAPE " hescape
    refine of_pieces _ f [Fragment.ofText (if negated then " NOT LIKE " else " LIKE "), g,
      EntitySql.lastPart " ESCAPE " last] rfl rfl ?_
    simp only [namesOf_cons, shownAll_cons]
    tauto_set
  | quantified hcolumns hw hcondition hid =>
    refine subset_trans (quantified hcolumns hw hcondition hid) ?_
    rw [shownAll_singleton]
    exact shown_parenthesized.trans shown_append_right
  | «exists» hw =>
    refine names_subset rfl (List.forall_mem_singleton.2 ?_)
    rw [shownAll_singleton]
    exact (output hw).trans (shown_parenthesized.trans shown_append_right)

/-! ## Sources -/

/-- A source shows its names if its parts do. -/
theorem sourceForm {source : Source} (h : Source.Form S S.showing source f) :
    S.showing.source source f := by
  cases h with
  | ofClass | commonTable => exact names_subset rfl nofun
  | @cross lhs rhs l r hl hr =>
    refine names_subset rfl (List.forall_mem_cons.2 ⟨?_, List.forall_mem_singleton.2 ?_⟩)
    · exact subset_trans hl (shown_append_left.trans shown_append_left)
    · exact subset_trans hr shown_append_right
  | @on lhs rhs type condition l r c hl hr hc =>
    have hall := shownAll_subset_foldl (t := S.final) l [" " ++ type.sql ++ " ", r, " ON ", c]
    simp only [shownAll_cons] at hall
    refine names_subset rfl (List.forall_mem_cons.2 ⟨subset_trans hl ?_, List.forall_mem_cons.2
      ⟨subset_trans hr ?_, List.forall_mem_singleton.2 ((single hc).trans ?_)⟩⟩)
    all_goals exact subset_trans (by tauto_set) hall
  | relationship _ _ hl _ hr =>
    refine names_subset rfl (List.forall_mem_cons.2 ⟨fun x hx => ?_,
      List.forall_mem_singleton.2 (subset_trans hr (shown_append_right.trans shown_append_left))⟩)
    have hx := hl hx
    repeat refine mem_shown_append fun _ => ?_
    exact hx
  | subquery hw =>
    exact names_subset rfl (List.forall_mem_singleton.2
      ((output hw).trans (shown_parenthesized.trans shown_append_left)))
  | function hc => exact names_subset_of_exps _ rfl rfl ((sql hc).trans shown_append_left)

/-! ## Selects -/

/-- A clause shows its body. -/
theorem clause (keyword : String) {body : Option Fragment} :
    S.final.shownAll body.toList ⊆ S.final.shown (Lowering.clause keyword body) := by
  cases body with
  | none => simp
  | some body =>
    rw [Option.toList_some, shownAll_singleton]
    exact shown_append_right

/-- A clause shows all columns in its lists. -/
theorem columnClause (keyword : String) {lists : List Columns} :
    S.final.shownAll lists.flatten ⊆ S.final.shown (Lowering.columnClause keyword lists) := by
  refine subset_trans ?_ (clause keyword)
  cases lists with
  | nil => simp
  | cons columns lists =>
    rw [if_neg (by simp), Option.toList_some, shownAll_singleton]
    exact shownAll_subset_join

/-- Aliases hide no columns. -/
theorem numberedColumns {aliasName : String} :
    S.final.shownAll columns ⊆ S.final.shownAll (Lowering.numberedColumns aliasName columns) := by
  rintro x ⟨f, hf, hx⟩
  obtain ⟨i, hi, rfl⟩ := List.getElem_of_mem hf
  have hmem := List.mk_mem_zipIdx_iff_getElem?.2 (List.getElem?_eq_getElem hi)
  exact ⟨_, List.mem_map_of_mem hmem, shown_append_left hx⟩

/-- Names of columns hide no columns. -/
theorem namedColumns {item : SelectItem Operand} :
    S.final.shownAll columns ⊆ S.final.shownAll (Lowering.namedColumns item columns) := by
  unfold Lowering.namedColumns
  split
  · exact numberedColumns
  · split
    · exact subset_rfl
    · rw [shownAll_singleton, shownAll_singleton]
      exact shown_append_left
    · exact numberedColumns

/-- An item shows the names in its expression. -/
theorem selectItem {derivedAliases : Bool} {item : SelectItem Exp} {columns : Columns × Columns}
    (h : item.Form S.showing derivedAliases columns) :
    S.namesOf [item.exp] ⊆ S.final.shownAll columns.1 := by
  obtain ⟨hcolumns, hnamed⟩ := h
  rw [namesOf_cons, namesOf_nil, Set.union_empty, hnamed]
  split
  · exact subset_trans hcolumns namedColumns
  · exact hcolumns

/-- A limit shows the names in its count and its offset. -/
theorem limit {limit : Option (Limit Exp)} {f : Option Fragment}
    (h : Option.Rel (Limit.Form S.showing) limit f) :
    S.namesOf (limit.toList.flatMap (·.exps)) ⊆ S.final.shown (f.getD .empty) := by
  cases h with
  | none => simp
  | some h =>
    obtain ⟨count, offset, hcount, hoffset, rfl⟩ := h
    have hcount := single hcount
    have hoffset := (single? hoffset).trans (clause " OFFSET ")
    refine subset_trans ?_
      (shownAll_subset_foldl " LIMIT " [count, Lowering.clause " OFFSET " offset])
    simp only [Option.toList_some, List.flatMap_singleton, Limit.exps, namesOf_cons, shownAll_cons]
    tauto_set

/-- The clauses behind the condition show the names of the rest of the expressions. -/
theorem behind {c : SelectCore Exp Source} {behind : List Fragment}
    (h : c.BehindForm S.showing behind) :
    S.namesOf (c.groupBy ++ c.having.toList ++ c.windows.flatMap (·.window.exps)
      ++ c.orderBy.map (·.exp) ++ c.limit.toList.flatMap (·.exps)) ⊆ S.final.shownAll behind := by
  obtain ⟨groupBy, having, windows, orderBy, last, hgroupBy, hhaving, hwindows, horderBy, hlimit,
    rfl⟩ := h
  have hgroupBy := forall₂ (fun e => [e]) id hgroupBy fun _ _ h => by
    rw [namesOf_cons, namesOf_nil, Set.union_empty]
    exact h
  have hwindows := forall₂ (·.window.exps) (fun f => [f]) hwindows fun definition f h => by
    obtain ⟨g, hg, rfl⟩ := h
    rw [shownAll_singleton]
    exact (windowSpec hg).trans (shown_parenthesized.trans shown_append_right)
  have horderBy := forall₂ (fun key => [key.exp]) id horderBy fun _ _ => sortKey
  rw [List.flatMap_singleton', List.flatMap_id] at hgroupBy
  rw [List.flatMap_singleton'] at hwindows
  rw [← List.map_eq_flatMap, List.flatMap_id] at horderBy
  have hclause : S.final.shownAll windows
      ⊆ S.final.shown (Lowering.clause " " (windowsPart windows)) := by
    refine subset_trans ?_ (clause " ")
    cases windows with
    | nil => simp
    | cons f fs =>
      rw [windowsPart, if_neg (by simp), Option.toList_some, shownAll_singleton]
      exact shownAll_subset_join.trans shown_append_right
  have hgroupBy := hgroupBy.trans (columnClause " GROUP BY ")
  have hhaving := (single? hhaving).trans (clause " HAVING ")
  have horderBy := horderBy.trans (columnClause " ORDER BY ")
  have hlimit := limit hlimit
  simp only [namesOf_append, shownAll_cons, shownAll_nil, Set.union_empty, ← Set.union_assoc]
  exact Set.union_subset_union (Set.union_subset_union (Set.union_subset_union
    (Set.union_subset_union hgroupBy hhaving) (hwindows.trans hclause)) horderBy) hlimit

/-- The first clauses of a select show the names in its items, and its sources. -/
theorem headText {c : SelectCore Exp Source} {derivedAliases : Bool} (sources : List Fragment)
    {items : List (Columns × Columns)}
    (hitems : List.Forall₂ (SelectItem.Form S.showing derivedAliases) c.items items) :
    S.namesOf (c.items.map (·.exp)) ∪ S.final.shownAll sources
      ⊆ S.final.shown (EntitySql.headText c.quantifier sources items) := by
  have hitems := forall₂ (fun item => [item.exp]) (·.1) hitems fun _ _ => selectItem
  rw [← List.map_eq_flatMap] at hitems
  have hsources : S.final.shownAll sources
      ⊆ S.final.shown (Lowering.columnClause " FROM " (sources.map fun source => [source])) := by
    refine subset_trans ?_ (columnClause " FROM ")
    rw [← List.flatMap_def, List.flatMap_singleton']
  rw [EntitySql.headText]
  exact Set.union_subset (hitems.trans (shownAll_subset_join.trans
    (shown_append_right.trans shown_append_left))) (hsources.trans shown_append_right)

/-- An anchor is seen in the place of a condition, and if it shows the condition, so does the
clause. -/
theorem wherePart (condition : Option Fragment) (anchor : Option AnchorId) :
    (∀ id ∈ anchor,
        S.final.shown (.ofAnchor id) ⊆ S.final.shown (EntitySql.wherePart condition anchor))
      ∧ ((∀ id ∈ anchor, S.final.shownAll condition.toList ⊆ S.final.shown (.ofAnchor id)) →
        S.final.shownAll condition.toList ⊆ S.final.shown (EntitySql.wherePart condition anchor)) := by
  cases anchor with
  | none => exact ⟨nofun, fun _ => clause " WHERE "⟩
  | some id =>
    constructor
    · rintro _ ⟨⟩
      exact shown_append_right
    · exact fun h => (h id rfl).trans shown_append_right

/-- A single select shows its names if its anchor shows what it was filled with. -/
theorem coreForm {c : SelectCore Exp Source} {anchor : Option AnchorId} {captured : CapturedSelect}
    (h : c.Form S.showing anchor captured f) : S.showing.core c anchor captured f := by
  obtain ⟨hsources, hitems, hcondition, hbehind⟩ := h
  rename_i sources items condition behind
  obtain ⟨hanchor, hwhere⟩ := wherePart (S := S) condition anchor
  have hall := shownAll_subset_foldl (t := S.final)
    (EntitySql.headText c.quantifier sources items ++ EntitySql.wherePart condition anchor) behind
  rw [shownAll_cons] at hall
  have hfirst := subset_trans Set.subset_union_left hall
  refine ⟨fun id hid => (hanchor id hid).trans (shown_append_right.trans hfirst),
    fun hcaptured => names_subset rfl fun m hm => ?_⟩
  obtain ⟨hitems, hsource⟩ := Set.union_subset_iff.1 (headText sources hitems)
  have hhead := (shown_append_left (t := S.final)).trans hfirst
  rcases List.mem_append.1 hm with hm | hm
  · obtain ⟨source, hmem, rfl⟩ := List.mem_map.1 hm
    have hshown := forall_of_forall₂ hsources.flip (P := fun source => S.names (.source source)
      ⊆ S.final.shownAll sources) fun f hf _ hf' x hx => ⟨f, hf, hf' hx⟩
    exact (hshown source hmem).trans (hsource.trans hhead)
  · obtain ⟨e, he, rfl⟩ := List.mem_map.1 hm
    have hwhere := (hwhere hcaptured).trans (shown_append_right.trans hfirst)
    have hexps := Set.union_subset (Set.union_subset (hitems.trans hhead)
      ((single? hcondition).trans hwhere))
      ((showing.behind hbehind).trans (subset_trans Set.subset_union_right hall))
    refine fun x hx => hexps ?_
    have hmem : x ∈ S.namesOf c.exps := ⟨e, he, hx⟩
    simpa only [SelectCore.exps, namesOf_append, Set.union_assoc] using hmem

/-- The further selects of a compound show their names. -/
theorem arms {arms : List (CompoundArm Exp Source)} (h : ArmsForm S.showing arms f) :
    ∀ arm ∈ arms, S.names (.core arm.core) ⊆ S.final.shown f := by
  induction h with
  | nil => nofun
  | cons hcore _ ih =>
    refine List.forall_mem_cons.2 ⟨?_, fun arm harm => (ih arm harm).trans shown_append_right⟩
    exact (hcore.2 nofun).trans (shown_append_right.trans shown_append_left)

/-- A select shows its names if the single selects do that it is made of. -/
theorem selectForm (htexts : S.env.texts = none) {w : Select Exp Source} {anchor : Option AnchorId}
    {captured : CapturedSelect} (h : w.Form S S.showing anchor captured f) :
    S.showing.select w anchor captured f := by
  cases h with
  | written hfirst harms =>
    refine ⟨fun id hid => (hfirst.1 id hid).trans shown_append_left,
      fun hcaptured => names_subset rfl (List.forall_mem_cons.2
        ⟨(hfirst.2 hcaptured).trans shown_append_left, fun m hm => ?_⟩)⟩
    obtain ⟨core, hcore, rfl⟩ := List.mem_map.1 hm
    obtain ⟨arm, harm, rfl⟩ := List.mem_map.1 hcore
    exact (arms harms arm harm).trans shown_append_right
  | standsIn h =>
    rw [htexts] at h
    cases h

/-- Names are shown by wholes if they are by parts, as long as no texts stand in for selects. -/
theorem closed (htexts : S.env.texts = none) (horderly : S.orderly) : S.showing.Closed S :=
  ⟨expForm horderly, sourceForm, coreForm, selectForm htexts⟩

/-! ## Statements -/

/-- New values show the names of their parameters. -/
theorem assignment {a : Assignment} {columns : Columns × Columns} (h : a.Form S S.showing columns) :
    columns.1.length = columns.2.length ∧ S.namesOf [a.value] ⊆ S.final.shownAll columns.2 := by
  obtain ⟨ls, rs, -, hrs, halign⟩ := h
  obtain ⟨hlength, -, hvalue⟩ := eq_of_align halign
  refine ⟨hlength, ?_⟩
  rw [namesOf_cons, namesOf_nil, Set.union_empty]
  cases hnull : a.value.isNull with
  | true => simp [names_of_isNull hnull]
  | false => exact hvalue hnull ▸ hrs

/-- The condition of a change shows its names. -/
theorem condition {table : Table} {condition : Option Exp}
    (h : ConditionForm S.showing table condition f) :
    S.namesOf condition.toList ⊆ S.final.shown f := by
  obtain ⟨g, filter, hg, -, rfl⟩ := h
  refine (single? hg).trans ?_
  cases g with
  | none => simp
  | some g =>
    rw [Option.toList_some, shownAll_singleton]
    cases filter with
    | none => exact shown_append_right
    | some => exact shown_parenthesized.trans (shown_append_right.trans shown_append_left)

/-- An insertion shows the names in its values. -/
theorem insertForm {statement : Insert} (h : statement.Form S S.showing f) :
    S.namesOf statement.values ⊆ S.final.shown f := by
  obtain ⟨target, assignments, hlength, -, hassignments, rfl⟩ := h
  have hvalues := forall₂ (fun a => [a.value]) (·.2) hassignments fun _ _ h => (assignment h).2
  rw [← List.map_eq_flatMap, map_value_zipWith hlength] at hvalues
  have hlist : S.final.shownAll (assignments.flatMap (·.2)) ⊆ S.final.shownAll
      (assignments.flatMap (·.2) ++ (classColumn statement target.2).2) := by
    rw [shownAll_append]
    exact Set.subset_union_left
  exact hvalues.trans (hlist.trans (shownAll_subset_join.trans
    (shown_append_right.trans shown_append_left)))

/-- An update shows the names in its values and its condition. -/
theorem updateForm {statement : Update} (h : statement.Form S S.showing f) :
    S.namesOf (statement.assignments.map (·.value) ++ statement.condition.toList)
      ⊆ S.final.shown f := by
  obtain ⟨target, assignments, last, -, hassignments, hlast, rfl⟩ := h
  have hvalues := forall₂ (fun a => [a.value]) (fun columns => List.zipWith
    (fun (column value : Fragment) => column ++ "=" ++ value) columns.1 columns.2) hassignments
    fun a columns h => by
      obtain ⟨hlength, hvalue⟩ := assignment h
      refine hvalue.trans (subset_trans Set.subset_union_right (shownAll_subset_zipWith hlength
        (fun _ _ => shown_append_left.trans shown_append_left) fun _ _ => shown_append_right))
  rw [← List.map_eq_flatMap] at hvalues
  have hvalues : _ ⊆ S.final.shown (newValues assignments) :=
    hvalues.trans shownAll_subset_join
  rw [namesOf_append]
  exact Set.union_subset (hvalues.trans (shown_append_right.trans shown_append_left))
    ((condition hlast).trans shown_append_right)

/-- A deletion shows the names in its condition. -/
theorem deleteForm {statement : Delete} (h : statement.Form S S.showing f) :
    S.namesOf statement.condition.toList ⊆ S.final.shown f := by
  obtain ⟨target, last, -, hlast, rfl⟩ := h
  exact (condition hlast).trans shown_append_right

/-- Common tables show the names in their selects. -/
theorem tables {separator : String} {tables : List CommonTable}
    (h : TablesForm S.showing separator tables f) :
    ∀ table ∈ tables, S.names (.select table.select) ⊆ S.final.shown f := by
  induction h with
  | nil => nofun
  | cons htable _ ih =>
    obtain ⟨hselect⟩ := htable
    refine List.forall_mem_cons.2 ⟨?_, fun table htable => (ih table htable).trans
      shown_append_right⟩
    exact (hselect.2 nofun).trans
      (shown_append_left.trans (shown_append_right.trans shown_append_left))

/-- A statement shows the names of all parameters that are lowered with it. -/
theorem statementForm (htexts : S.env.texts = none) {statement : Statement}
    (h : Statement.Form S S.showing statement f) :
    ∀ n ∈ statement.nodes, S.names n ⊆ S.final.shown f := by
  have hexps {exps : List Exp} (h : S.namesOf exps ⊆ S.final.shown f) :
      ∀ n ∈ exps.map Node.exp, S.names n ⊆ S.final.shown f :=
    List.forall_mem_map.2 fun e he x hx => h ⟨e, he, hx⟩
  cases h with
  | select hw => exact List.forall_mem_singleton.2 (hw.2 nofun)
  | withSelect htables hw =>
    refine List.forall_mem_append.2 ⟨List.forall_mem_map.2 fun table htable => ?_,
      List.forall_mem_singleton.2 ?_⟩
    · exact (tables htables table htable).trans (shown_append_left.trans shown_append_right)
    · exact (hw.2 nofun).trans
        (shown_append_right.trans (shown_append_right.trans shown_append_right))
  | insert hf => exact hexps (insertForm hf)
  | update hf =>
    have hall := hexps (updateForm hf)
    rw [List.map_append, List.map_map] at hall
    exact hall
  | delete hf => exact hexps (deleteForm hf)
  | standsIn h =>
    rw [htexts] at h
    cases h

end showing
end Setting
end EntitySql
