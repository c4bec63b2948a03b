import EntitySql.Proofs.Lowering.ChangeText
import EntitySql.Proofs.Sql.Joins
import EntitySql.Proofs.Wording.Expression

/-!
# Grouping of joins

Joins are written without parentheses, whatever is on their right. A database puts joins together
from the left, and takes an `ON` for a condition of the join before it. So what is read is
`JoinTree.regrouped` of the tree of joins in the source, and that is the tree itself only if no join
has another one on its right (`Source.readJoins_eq_some_iff`). With an outer join of a cross join,
the text has another meaning (`Sample.regroups_crossOnRight`).
-/

namespace EntitySql

open Lowering
open Sql (AnchorTable Bracketable EndsWord Fragment JoinTree OnlyWords Opens bracketed
  isCommentFree isNotJoining readJoins textSymbols)

/-! ## Trees of joins -/

namespace Source

/-- A class name or a common table, or a join of such trees, across or with a condition. -/
inductive IsJoinTree : Source → Prop
  | ofClass (c : ClassName) : IsJoinTree (.ofClass c)
  | commonTable (name : String) (aliasName : Option String) :
    IsJoinTree (.commonTable name aliasName)
  | cross {lhs rhs : Source} (hl : IsJoinTree lhs) (hr : IsJoinTree rhs) :
    IsJoinTree (.join lhs rhs .cross)
  | on {lhs rhs : Source} (hl : IsJoinTree lhs) (hr : IsJoinTree rhs) (type : JoinType)
    (condition : Exp) : IsJoinTree (.join lhs rhs (.on type condition))

/-- Whether the source is a join. -/
def isJoin : Source → Bool
  | .join .. => true
  | _ => false

/-- Whether no join has another one on its right. -/
def isLeftNested : Source → Bool
  | .join lhs rhs _ => !rhs.isJoin && lhs.isLeftNested
  | _ => true

/-- The tree has the operands, the joins and the conditions of the source, with the texts in `t` of
what they are lowered to, one after the other, on the way from the first state to the second. -/
inductive JoinedAs (env : Environment) (usageOf : String → PropertyUsage) (t : AnchorTable) :
    Source → State → JoinTree → State → Prop
  | ofClass {c : ClassName} {s s' : State} {f : Fragment} {text : String}
    (hrun : Lowering.className usageOf c env s = (.ok f, s')) (htext : t.render f = .ok text) :
    JoinedAs env usageOf t (.ofClass c) s (.operand text) s'
  | commonTable {name : String} {aliasName : Option String} {s : State} :
    JoinedAs env usageOf t (.commonTable name aliasName) s
      (.operand (bracketed name ++ aliasSuffix aliasName)) s
  | cross {lhs rhs : Source} {s s₁ s' : State} {left right : JoinTree}
    (hl : JoinedAs env usageOf t lhs s left s₁) (hr : JoinedAs env usageOf t rhs s₁ right s') :
    JoinedAs env usageOf t (.join lhs rhs .cross) s (.join left none right none) s'
  | on {lhs rhs : Source} {s s₁ s₂ s' : State} {left right : JoinTree} {type : JoinType}
    {condition : Exp} {f : Fragment} {text : String}
    (hl : JoinedAs env usageOf t lhs s left s₁) (hr : JoinedAs env usageOf t rhs s₁ right s₂)
    (hrun : condition.lower env s₂ = (.ok [f], s')) (htext : t.render f = .ok text) :
    JoinedAs env usageOf t (.join lhs rhs (.on type condition)) s
      (.join left (some type) right (some text)) s'

namespace JoinedAs

variable {env : Environment} {usageOf : String → PropertyUsage} {t u : AnchorTable}
  {source : Source} {s s' : State} {tree : JoinTree}

/-- Later steps only add to the anchors. -/
theorem of_le (h : JoinedAs env usageOf t source s tree s') (hle : t ≤ u) :
    JoinedAs env usageOf u source s tree s' := by
  induction h with
  | ofClass hrun htext => exact .ofClass hrun (AnchorTable.render_of_le hle htext)
  | commonTable => exact .commonTable
  | cross _ _ ihl ihr => exact .cross ihl ihr
  | on _ _ hrun htext ihl ihr => exact .on ihl ihr hrun (AnchorTable.render_of_le hle htext)

theorem isJoin_eq (h : JoinedAs env usageOf t source s tree s') : tree.isJoin = source.isJoin := by
  cases h <;> rfl

/-- The tree is nested as the source is. -/
theorem isLeftNested_eq (h : JoinedAs env usageOf t source s tree s') :
    tree.isLeftNested = source.isLeftNested := by
  induction h with
  | ofClass | commonTable => rfl
  | cross _ hr ihl _ => rw [JoinTree.isLeftNested, isLeftNested, hr.isJoin_eq, ihl]
  | on _ hr _ _ ihl _ => rw [JoinTree.isLeftNested, isLeftNested, hr.isJoin_eq, ihl]

end JoinedAs

end Source

/-! ## The texts of operands and conditions -/

/-- Neither a keyword nor a number nor the database name of a parameter belongs to a join. -/
theorem admissible_isNotJoining : Admissible isNotJoining :=
  (admissible_isNotWord (by decide) (by decide) (by decide)).and
    (admissible_isNotWord (by decide) (by decide) (by decide))

/-- A name in brackets can be joined, with any closed text before it that ends in no word. -/
theorem bracketed_operand {x y : String} (hx : EndsWord isNotJoining (textSymbols x))
    (hy : Bracketable y) : (JoinTree.operand (x ++ bracketed y)).Bracketed := by
  constructor
  · rw [Sql.textSymbols_append]
    exact (hx.append (Sql.endsWord_bracketed hy)).onlyWords
  · have htext : (bracketed y).toList = '[' :: (y.toList ++ [']']) := by
      simp [bracketed, String.toList_append]
    rw [String.toList_append, htext]
    simp [List.getLast?_append, List.getLast?_cons]

/-- A name in brackets can be joined. -/
theorem bracketed_bracketed {x : String} (hx : Bracketable x) :
    (JoinTree.operand (bracketed x)).Bracketed := by
  have h := bracketed_operand (x := "") rfl hx
  rwa [String.empty_append] at h

variable {env : Environment} {usageOf : String → PropertyUsage} {s s' : State} {f : Fragment}

/-- A common table can be joined, with an alias or without one. -/
theorem bracketed_commonTable {name : String} {aliasName : Option String}
    (hname : Bracketable name) (halias : ∀ x ∈ aliasName, Bracketable x) :
    (JoinTree.operand (bracketed name ++ aliasSuffix aliasName)).Bracketed := by
  cases aliasName with
  | none =>
    rw [aliasSuffix, Option.elim_none, String.append_empty]
    exact bracketed_bracketed hname
  | some x =>
    rw [aliasSuffix, Option.elim_some, ← String.append_assoc]
    refine bracketed_operand ?_ (halias x rfl)
    rw [Sql.textSymbols_append]
    exact (Sql.endsWord_bracketed hname).append rfl

/-- The text of a class name can be joined. -/
theorem ClassName.Form.exists_bracketed {c : ClassName} {S : Setting} (hf : c.Form S f)
    (henv : S.env.Plain) (halias : Bracketable c.effectiveAlias) :
    ∃ x, f = Fragment.ofText x ∧ (JoinTree.operand x).Bracketed := by
  cases hf with
  | view hview =>
    rw [henv.view] at hview
    obtain ⟨rows, hrows, rfl⟩ := Catalog.exists_viewSource_eq (p := .balanced)
      (fun x hx _ => henv.catalog x hx) hview
    have hopens : Opens isNotJoining (textSymbols "(") := rfl
    refine ⟨_, rfl, bracketed_operand ?_ halias⟩
    rw [Sql.textSymbols_append, Sql.textSymbols_append]
    exact (hopens.append (hrows trivial)).close rfl
  | table hmap =>
    refine ⟨_, rfl, bracketed_bracketed (henv.catalog.map ?_ (List.mem_cons_self ..))⟩
    exact Catalog.mem_maps_of_classMap? (Catalog.classMap_eq_ok.1 hmap)

/-- The setting of a run that ends in the state `s'`. -/
def runSetting (env : Environment) (s' : State) : Setting :=
  ⟨env, s'.anchors, True⟩

/-- Every step can start in an orderly state. -/
theorem State.Orderly.ready (hs : s.Orderly) : (runSetting env s').Ready s :=
  ⟨hs.pending, fun _ => hs.bound⟩

/-- A step that went well leaves an orderly state. -/
theorem State.Orderly.of_success {α : Type} {R : α → Prop} {a : α} (hs : s.Orderly)
    (h : (runSetting env s').Success R s a s') : s'.Orderly :=
  ⟨h.keeps.pending.trans hs.pending, h.parameters trivial⟩

/-- No keyword of a join stands outside in the text of a condition. -/
theorem Exp.exists_render_of_single {e : Exp} {role : String} (henv : env.Plain)
    (hfunctions : env.functions.WordsIn isNotJoining) (hs : s.Orderly)
    (hproper : (Node.exp e).Proper isNotJoining)
    (hrun : e.operand.single role env s = (.ok f, s')) :
    s'.Orderly ∧ s.anchors ≤ s'.anchors ∧ ∃ text, s'.anchors.render f = .ok text
      ∧ OnlyWords isNotJoining (textSymbols text) := by
  let S : Setting := runSetting env s'
  have hwording : S.Wording isNotJoining (S.wording isNotJoining) :=
    Setting.wording_wording admissible_isNotJoining henv hfunctions trivial
  have hlowers : S.Lowers (S.wording isNotJoining) e := Setting.holds
    (Setting.closed_wording admissible_isNotJoining henv hfunctions trivial) (.exp e)
  have hsuccess := (hlowers.single role).meets.success hs.ready hrun
  have hresult := hsuccess.result (AnchorTable.le_refl _)
  have hfits := hwording.fitting.single_fits hresult hproper.plain.suits
  obtain ⟨text, htext, -⟩ := hfits.renderWithin
  refine ⟨hs.of_success hsuccess, hsuccess.anchors.le, text, htext, ?_⟩
  exact ((hwording.single hresult hproper).onlyWords fun _ => rfl).render hfits htext

/-! ## Lowering a tree of joins -/

namespace Source

variable {source : Source} {tree : JoinTree}

/-- The source is lowered to a fragment whose text is that of its tree, without parentheses. -/
structure WrittenAs (env : Environment) (usageOf : String → PropertyUsage) (source : Source)
    (s : State) (tree : JoinTree) (f : Fragment) (s' : State) : Prop where
  joined : source.JoinedAs env usageOf s'.anchors s tree s'
  text : s'.anchors.render f = .ok tree.text
  bracketed : tree.Bracketed
  orderly : s'.Orderly
  le : s.anchors ≤ s'.anchors

namespace WrittenAs

variable {lhs rhs : Source} {s₁ s₂ : State} {left right : JoinTree} {l r : Fragment}

/-- What stands on the left is found in the anchors that there are at the end, too. -/
theorem cross (hl : WrittenAs env usageOf lhs s left l s₁)
    (hr : WrittenAs env usageOf rhs s₁ right r s') :
    WrittenAs env usageOf (.join lhs rhs .cross) s (.join left none right none)
      (l ++ " CROSS JOIN " ++ r) s' where
  joined := .cross (hl.joined.of_le hr.le) hr.joined
  text := AnchorTable.render_append (AnchorTable.render_append
    (AnchorTable.render_of_le hr.le hl.text) (AnchorTable.render_ofText _)) hr.text
  bracketed := ⟨hl.bracketed, hr.bracketed, by simp⟩
  orderly := hr.orderly
  le := AnchorTable.le_trans hl.le hr.le

/-- The condition stands behind both operands. -/
theorem on {type : JoinType} {condition : Exp} {g : Fragment} {text : String}
    (hl : WrittenAs env usageOf lhs s left l s₁) (hr : WrittenAs env usageOf rhs s₁ right r s₂)
    (hrun : condition.lower env s₂ = (.ok [g], s')) (hs' : s'.Orderly)
    (hle : s₂.anchors ≤ s'.anchors) (htext : s'.anchors.render g = .ok text)
    (hwords : OnlyWords isNotJoining (textSymbols text)) :
    WrittenAs env usageOf (.join lhs rhs (.on type condition)) s
      (.join left (some type) right (some text))
      (l ++ (" " ++ type.sql ++ " ") ++ r ++ " ON " ++ g) s' where
  joined := .on (hl.joined.of_le (AnchorTable.le_trans hr.le hle)) (hr.joined.of_le hle) hrun htext
  text := by
    have hleft := AnchorTable.render_of_le (AnchorTable.le_trans hr.le hle) hl.text
    have hright := AnchorTable.render_of_le hle hr.text
    have hkeywords := AnchorTable.render_append (t := s'.anchors) (AnchorTable.render_append
      (AnchorTable.render_ofText " ") (AnchorTable.render_ofText type.sql))
      (AnchorTable.render_ofText " ")
    have hjoin := AnchorTable.render_append (AnchorTable.render_append hleft hkeywords) hright
    exact AnchorTable.render_append (AnchorTable.render_append hjoin
      (AnchorTable.render_ofText " ON ")) htext
  bracketed := ⟨hl.bracketed, hr.bracketed, by simpa using hwords⟩
  orderly := hs'
  le := AnchorTable.le_trans hl.le (AnchorTable.le_trans hr.le hle)

end WrittenAs

theorem lhs_mem_parts {lhs rhs : Source} {kind : JoinKind Exp} :
    Node.source lhs ∈ (Node.source (.join lhs rhs kind)).parts :=
  List.mem_cons_self ..

theorem rhs_mem_parts {lhs rhs : Source} {kind : JoinKind Exp} :
    Node.source rhs ∈ (Node.source (.join lhs rhs kind)).parts :=
  List.mem_cons_of_mem _ (List.mem_cons_self ..)

/-- By induction on the tree, along the run: each operand is lowered in the state that the one
before it has left. -/
theorem exists_writtenAs (henv : env.Plain) (hfunctions : env.functions.WordsIn isNotJoining)
    (htree : source.IsJoinTree) (hs : s.Orderly) (hproper : (Node.source source).Proper isNotJoining)
    (hrun : source.lower usageOf env s = (.ok f, s')) :
    ∃ tree, WrittenAs env usageOf source s tree f s' := by
  induction htree generalizing s f s' with
  | ofClass c =>
    rw [Source.lower] at hrun
    have hsuccess := Setting.spec_className.meets.success (S := runSetting env s') hs.ready hrun
    obtain ⟨x, rfl, hx⟩ := (hsuccess.result (AnchorTable.le_refl _)).exists_bracketed henv
      (hproper.plain.vocabulary.identifiers _ (List.mem_cons_self ..))
    exact ⟨.operand x, .ofClass hrun (AnchorTable.render_ofText x), AnchorTable.render_ofText x, hx,
      hs.of_success hsuccess, hsuccess.anchors.le⟩
  | commonTable name aliasName =>
    rw [Source.lower] at hrun
    obtain ⟨rfl, rfl⟩ := eq_of_pure hrun
    have hidentifiers := hproper.plain.vocabulary.identifiers
    refine ⟨_, .commonTable, ?_, ?_, hs, AnchorTable.le_refl _⟩
    · exact AnchorTable.render_append (AnchorTable.render_ofText _) (AnchorTable.render_ofText _)
    · exact bracketed_commonTable (hidentifiers _ (List.mem_cons_self ..)) fun x hx =>
        hidentifiers x (List.mem_cons_of_mem _ (Option.mem_toList.2 hx))
  | @cross lhs rhs hl hr ihl ihr =>
    rw [Source.lower] at hrun
    obtain ⟨l, s₁, hlhs, hrest⟩ := bind_eq_ok.1 hrun
    obtain ⟨r, s₂, hrhs, hpure⟩ := bind_eq_ok.1 hrest
    obtain ⟨rfl, rfl⟩ := eq_of_pure hpure
    obtain ⟨left, hleft⟩ := ihl hs (hproper.part lhs_mem_parts) hlhs
    obtain ⟨right, hright⟩ := ihr hleft.orderly (hproper.part rhs_mem_parts) hrhs
    exact ⟨_, hleft.cross hright⟩
  | @on lhs rhs hl hr type condition ihl ihr =>
    rw [Source.lower] at hrun
    obtain ⟨l, s₁, hlhs, hrest⟩ := bind_eq_ok.1 hrun
    obtain ⟨r, s₂, hrhs, hrest⟩ := bind_eq_ok.1 hrest
    obtain ⟨g, s₃, hcondition, hpure⟩ := bind_eq_ok.1 hrest
    obtain ⟨rfl, rfl⟩ := eq_of_pure hpure
    have hpart : Node.exp condition ∈ (Node.source (.join lhs rhs (.on type condition))).parts :=
      List.mem_cons_of_mem _ (List.mem_cons_of_mem _ (List.mem_singleton_self _))
    obtain ⟨left, hleft⟩ := ihl hs (hproper.part lhs_mem_parts) hlhs
    obtain ⟨right, hright⟩ := ihr hleft.orderly (hproper.part rhs_mem_parts) hrhs
    obtain ⟨horderly, hle, text, htext, honly⟩ := Exp.exists_render_of_single henv hfunctions
      hright.orderly (hproper.part hpart) hcondition
    exact ⟨_, hleft.on hright (single_eq_ok hcondition) horderly hle htext honly⟩

/-- A tree of joins is written without parentheses. What is read then, as long as no comment begins,
is the tree with all joins put together from the left. That is the tree itself exactly if no join of
the source has another one on its right. -/
theorem readJoins_eq_some_iff (henv : env.Plain)
    (hfunctions : env.functions.WordsIn isNotJoining) (hs : s.Orderly)
    (hnames : (Node.source source).Plain) (hwords : (Node.source source).WordsIn isNotJoining)
    (htree : source.IsJoinTree) (hrun : source.lower usageOf env s = (.ok f, s')) :
    ∃ tree : JoinTree, source.JoinedAs env usageOf s'.anchors s tree s'
      ∧ s'.anchors.render f = .ok tree.text
      ∧ (isCommentFree tree.text = true → readJoins tree.text = tree.regrouped
        ∧ (readJoins tree.text = some tree ↔ source.isLeftNested = true)) := by
  obtain ⟨tree, hwritten⟩ := exists_writtenAs henv hfunctions htree hs ⟨hnames, hwords⟩ hrun
  refine ⟨tree, hwritten.joined, hwritten.text, fun hfree => ?_⟩
  have hread := (hwritten.bracketed.proper hfree).readJoins_text
  refine ⟨hread, ?_⟩
  rw [hread, ← hwritten.joined.isLeftNested_eq]
  exact JoinTree.regrouped_eq_some_iff

end Source

namespace Sample

/-- The widgets, under an alias. -/
def widgets (aliasName : String) : Source :=
  .ofClass ⟨20, "ts", "Widget", some aliasName, false⟩

/-- What the widgets under an alias count. -/
def count (aliasName : String) : Exp :=
  .property ⟨aliasName, ["Count"], .ofClass 20, .primitive .long⟩

/-- An outer join of widgets that count the same. -/
def sameCount : JoinKind Exp :=
  .on .leftOuter (.boolean (count "w") (.comparison .eq) (count "v") false)

/-- An outer join, and then all pairs with a third widget. -/
def crossLast : Source :=
  .join (.join (widgets "w") (widgets "v") sameCount) (widgets "u") .cross

/-- The same joins, but the outer one is with pairs of widgets. -/
def crossOnRight : Source :=
  .join (widgets "w") (.join (widgets "v") (widgets "u") .cross) sameCount

/-- Names are plain, begin no comment and do not belong to joins, and minus signs are apart. -/
structure JoinsWell (n : Node) : Prop where
  plain : n.vocabulary.Plain
  word : n.HasWordIn isNotJoining
  contained : n.vocabulary.Contained
  signApart : n.SignApart

/-- The names in both sources can be joined. -/
theorem joinsWell_within : ∀ source ∈ [crossLast, crossOnRight],
    ∀ m : Node, m.Within (.source source) → JoinsWell m := by
  let Proper (n : Node) : Prop := ∀ m : Node, m.Within n → JoinsWell m
  have hleaf {n : Node} (hparts : n.parts = []) (hown : JoinsWell n) : Proper n :=
    Node.forall_within_iff.2 ⟨hown, by rw [hparts]; exact List.forall_mem_nil _⟩
  have hwidgets : ∀ x ∈ ["w", "v", "u"], Proper (.source (widgets x)) := by
    intro x hx
    have hplain : ∀ x ∈ ["w", "v", "u"], (Node.source (widgets x)).vocabulary.Plain := by decide
    have hcontained : ∀ x ∈ ["w", "v", "u"], (Node.source (widgets x)).vocabulary.Contained := by
      decide
    exact hleaf rfl ⟨hplain x hx, trivial, hcontained x hx, trivial⟩
  have hcondition : Proper (.exp (.boolean (count "w") (.comparison .eq) (count "v") false)) := by
    refine Node.forall_within_iff.2 ⟨⟨by decide, trivial, by decide, trivial⟩, ?_⟩
    exact List.forall_mem_cons.2 ⟨hleaf rfl ⟨by decide, trivial, by decide, trivial⟩,
      List.forall_mem_singleton.2 (hleaf rfl ⟨by decide, trivial, by decide, trivial⟩)⟩
  have hcross {lhs rhs : Source} (hl : Proper (.source lhs)) (hr : Proper (.source rhs)) :
      Proper (.source (.join lhs rhs .cross)) := by
    refine Node.forall_within_iff.2 ⟨⟨?_, trivial, ?_, trivial⟩, ?_⟩
    · exact (by decide : Vocabulary.Plain {})
    · exact (by decide : Vocabulary.Contained {})
    · exact List.forall_mem_cons.2 ⟨hl, List.forall_mem_singleton.2 hr⟩
  have hon {lhs rhs : Source} (hl : Proper (.source lhs)) (hr : Proper (.source rhs)) :
      Proper (.source (.join lhs rhs sameCount)) := by
    refine Node.forall_within_iff.2 ⟨⟨?_, trivial, ?_, trivial⟩, ?_⟩
    · exact (by decide : Vocabulary.Plain {})
    · exact (by decide : Vocabulary.Contained {})
    · exact List.forall_mem_cons.2 ⟨hl, List.forall_mem_cons.2 ⟨hr,
        List.forall_mem_singleton.2 hcondition⟩⟩
  have hw := hwidgets "w" (by decide)
  have hv := hwidgets "v" (by decide)
  have hu := hwidgets "u" (by decide)
  exact List.forall_mem_cons.2 ⟨hcross (hon hw hv) hu,
    List.forall_mem_singleton.2 (hon hw (hcross hv hu))⟩

/-- Lowers a source on its own. -/
def lowered (source : Source) : Except LoweringError Fragment × State :=
  source.lower (fun _ => .all) (.of catalog .default .builtin) .initial

theorem exists_lowered_eq_ok : ∀ source ∈ [crossLast, crossOnRight],
    ∃ f s', lowered source = (.ok f, s') := by
  intro source hsource
  have hok : ∀ source ∈ [crossLast, crossOnRight], (lowered source).1.toOption.isSome = true := by
    decide +kernel
  obtain ⟨f, hf⟩ := Except.exists_eq_ok (hok source hsource)
  exact ⟨f, (lowered source).2, Prod.ext hf rfl⟩

/-- No comment begins in the texts of the two sources. -/
theorem isCommentFree_of_lowered {source : Source} {f : Fragment} {s' : State} {text : String}
    (hsource : source ∈ [crossLast, crossOnRight]) (hrun : lowered source = (.ok f, s'))
    (htext : s'.anchors.render f = .ok text) : isCommentFree text = true := by
  let S := runSetting (.of catalog .default .builtin) s'
  let p : Sql.Promise := ⟨.comments, True⟩
  have henv : (Environment.of catalog .default .builtin).Suits p := fun _ =>
    ⟨Environment.standard_of .., by decide +kernel, by decide +kernel⟩
  have hsuits : (Node.source source).Suits p := fun _ =>
    ⟨fun m hm => (joinsWell_within source hsource m hm).contained,
      fun m hm => (joinsWell_within source hsource m hm).signApart⟩
  have hreads : S.Reads (S.fitting p) source :=
    Setting.holds (Setting.closed_fitting (S := S) henv fun _ => trivial) (.source source)
  have hsuccess := (hreads fun _ => .all).meets.success State.orderly_initial.ready hrun
  have hfits := hsuccess.result (AnchorTable.le_refl _) hsuits
  exact Sql.isCommentFree_of_passes (hfits.admits_of_render htext trivial)

theorem plain_environment : (Environment.of catalog .default .builtin).Plain :=
  ⟨Environment.standard_of .., by decide +kernel, by decide +kernel⟩

theorem wordsIn_builtin : Registry.builtin.WordsIn isNotJoining := by
  decide +kernel

/-- Joins that go from left to right are read as they are meant. -/
theorem readJoins_crossLast :
    ∃ f s' tree, lowered crossLast = (.ok f, s')
      ∧ crossLast.JoinedAs (.of catalog .default .builtin) (fun _ => .all) s'.anchors .initial
        tree s'
      ∧ s'.anchors.render f = .ok tree.text ∧ readJoins tree.text = some tree := by
  have hmem : crossLast ∈ [crossLast, crossOnRight] := List.mem_cons_self ..
  obtain ⟨f, s', hrun⟩ := exists_lowered_eq_ok crossLast hmem
  obtain ⟨tree, hjoined, htext, hread⟩ := Source.readJoins_eq_some_iff plain_environment
    wordsIn_builtin State.orderly_initial (fun m hm => (joinsWell_within _ hmem m hm).plain)
    (fun m hm => (joinsWell_within _ hmem m hm).word)
    (.cross (.on (.ofClass _) (.ofClass _) _ _) (.ofClass _)) hrun
  have hfree := isCommentFree_of_lowered hmem hrun htext
  exact ⟨f, s', tree, hrun, hjoined, htext, (hread hfree).2.2 rfl⟩

/-- The condition of the outer join is taken for one of the cross join, and the outer join has no
condition at all. -/
theorem regroups_crossOnRight :
    ∃ f s' text left middle right condition, lowered crossOnRight = (.ok f, s')
      ∧ s'.anchors.render f = .ok text
      ∧ crossOnRight.JoinedAs (.of catalog .default .builtin) (fun _ => .all) s'.anchors .initial
        (.join left (some .leftOuter) (.join middle none right none) (some condition)) s'
      ∧ readJoins text
        = some (.join (.join left (some .leftOuter) middle none) none right (some condition))
      ∧ readJoins text
        ≠ some (.join left (some .leftOuter) (.join middle none right none) (some condition)) := by
  have hmem : crossOnRight ∈ [crossLast, crossOnRight] :=
    List.mem_cons_of_mem _ (List.mem_cons_self ..)
  obtain ⟨f, s', hrun⟩ := exists_lowered_eq_ok crossOnRight hmem
  obtain ⟨tree, hwritten⟩ := Source.exists_writtenAs plain_environment wordsIn_builtin
    (.on (.ofClass _) (.cross (.ofClass _) (.ofClass _)) _ _) State.orderly_initial
    ⟨fun m hm => (joinsWell_within _ hmem m hm).plain,
      fun m hm => (joinsWell_within _ hmem m hm).word⟩ hrun
  have hfree := isCommentFree_of_lowered hmem hrun hwritten.text
  have hread := (hwritten.bracketed.proper hfree).readJoins_text
  have hjoined := hwritten.joined
  have htext := hwritten.text
  -- the operands of the tree are those of the source
  cases hjoined with
  | on hl hr hcondition hrender =>
    cases hr with
    | cross hmiddle hright =>
      cases hl
      cases hmiddle
      cases hright
      refine ⟨f, s', _, _, _, _, _, hrun, htext, hwritten.joined, hread, ?_⟩
      rw [hread]
      simp [JoinTree.regrouped, JoinTree.onto, Sql.Joined.add, Sql.Joined.on?]

end Sample

end EntitySql
