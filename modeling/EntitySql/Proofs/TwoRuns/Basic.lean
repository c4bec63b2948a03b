import EntitySql.Lowering.Statement
import EntitySql.Proofs.Except
import EntitySql.Proofs.Lists
import EntitySql.Proofs.Sql.Template

/-!
# Two runs of lowering

`TwoRuns` sets two runs of lowering side by side. They may differ in the texts of the statement and
in whether nested views are pruned. The second run may also have more anchors at its start, so that
all numbers of anchors are higher, and other frames below the ones that the runs write to. What
differs in their output are the texts in some holes and the numbers of anchors, and nothing else:
the runs go through states that are `Related`, and `TwoRuns.Agree` says of two steps that they lead
from related states to related states, and either both fail or have results that are related. They
fail with the same error, unless an error may name an anchor that has another number in the other
run.

There is one rule for each way in which steps are put together. A step that fails is like any other
here, as the states that it leaves are related too.
-/

namespace EntitySql

open Sql (AnchorId AnchorState AnchorTable Buffer CapturedSelect Fillings Fragment)

/-! ## States -/

namespace Sql.Fillings

variable {F : Fillings}

/-- What is known about two anchors is alike. -/
inductive EntriesAlike (F : Fillings) : AnchorState → AnchorState → Prop
  | reserved : EntriesAlike F .reserved .reserved
  | captured {select select' : CapturedSelect}
    (columns : F.ColumnsAlike select.columns select'.columns)
    (condition : Option.Rel F.FragmentsAlike select.condition select'.condition) :
    EntriesAlike F (.captured select) (.captured select')
  | resolved {f g : Fragment} (h : F.FragmentsAlike f g) : EntriesAlike F (.resolved f) (.resolved g)

/-- What the tables know about the anchors that are compared is alike. -/
structure TablesAlike (F : Fillings) (t u : AnchorTable) : Prop where
  entries : List.Forall₂ F.EntriesAlike (t.entries.drop F.base) (u.entries.drop (F.base + F.gap))
  base_le : F.base ≤ t.size
  size : u.size = t.size + F.gap

/-- The buffers have as many frames open. In the innermost ones, `count` of them and one more, the
output is alike. -/
structure BuffersAlike (F : Fillings) (count : Nat) (b b' : Buffer) : Prop where
  depth : b'.frames.length = b.frames.length
  count_le : count ≤ b.frames.length
  top : F.ColumnsAlike ((b.frames ++ [b.root]).take (count + 1))
    ((b'.frames ++ [b'.root]).take (count + 1))

/-- Buffers stay alike when alike output is appended. -/
theorem BuffersAlike.append {count : Nat} {b b' : Buffer} (h : F.BuffersAlike count b b')
    {f g : Fragment} (hfg : F.FragmentsAlike f g) :
    F.BuffersAlike count (b.append f) (b'.append g) := by
  obtain ⟨root, frames⟩ := b
  obtain ⟨root', frames'⟩ := b'
  obtain ⟨hdepth, hcount, htop⟩ := h
  cases frames with
  | nil =>
    obtain rfl : frames' = [] := List.length_eq_zero_iff.1 hdepth
    obtain rfl := Nat.le_zero.1 hcount
    obtain ⟨hroot, -⟩ := List.forall₂_cons.1 htop
    exact ⟨rfl, hcount, .cons (hroot.append hfg) .nil⟩
  | cons frame frames =>
    obtain ⟨frame', frames', rfl⟩ := List.exists_cons_of_length_eq_add_one hdepth
    obtain ⟨hframe, hrest⟩ := List.forall₂_cons.1 htop
    exact ⟨hdepth, hcount, .cons (hframe.append hfg) hrest⟩

/-- Buffers stay alike when a frame is opened in both. -/
theorem BuffersAlike.pushFrame {count : Nat} {b b' : Buffer} (h : F.BuffersAlike count b b') :
    F.BuffersAlike (count + 1) b.pushFrame b'.pushFrame :=
  ⟨congrArg (· + 1) h.depth, Nat.succ_le_succ h.count_le, .cons .empty h.top⟩

/-- Frames that are closed in both hold alike output. -/
theorem BuffersAlike.popFrame {count : Nat} {b b' : Buffer} (h : F.BuffersAlike (count + 1) b b') :
    F.FragmentsAlike b.popFrame.1 b'.popFrame.1
      ∧ F.BuffersAlike count b.popFrame.2 b'.popFrame.2 := by
  obtain ⟨root, frames⟩ := b
  obtain ⟨root', frames'⟩ := b'
  obtain ⟨hdepth, hcount, htop⟩ := h
  cases frames with
  | nil => cases hcount
  | cons frame frames =>
    obtain ⟨frame', frames', rfl⟩ := List.exists_cons_of_length_eq_add_one hdepth
    obtain ⟨hframe, hrest⟩ := List.forall₂_cons.1 htop
    exact ⟨hframe, Nat.succ.inj hdepth, Nat.le_of_succ_le_succ hcount, hrest⟩

/-- Alike anchors have alike entries. -/
theorem TablesAlike.get? {t u : AnchorTable} (h : F.TablesAlike t u) {id id' : AnchorId}
    (hid : F.AnchorsAlike id id') : Option.Rel F.EntriesAlike (t.get? id) (u.get? id') := by
  have hentry := forall₂_getElem? h.entries (id.index - F.base)
  rw [List.getElem?_drop, List.getElem?_drop, Nat.add_sub_cancel' hid.base_le,
    Nat.add_right_comm, Nat.add_sub_cancel' hid.base_le, ← hid.moved] at hentry
  exact hentry

/-- Tables stay alike when alike entries are set at alike anchors. -/
theorem TablesAlike.set {t u : AnchorTable} (h : F.TablesAlike t u) {id id' : AnchorId}
    (hid : F.AnchorsAlike id id') {entry entry' : AnchorState}
    (hentry : F.EntriesAlike entry entry') : F.TablesAlike (t.set id entry) (u.set id' entry') := by
  refine ⟨?_, ?_, ?_⟩
  · have hset := forall₂_set h.entries (id.index - F.base) hentry
    have hindex : id'.index - (F.base + F.gap) = id.index - F.base := by
      rw [hid.moved, Nat.add_sub_add_right]
    have hle : F.base + F.gap ≤ id'.index := by
      rw [hid.moved]
      exact Nat.add_le_add_right hid.base_le _
    rw [AnchorTable.set, AnchorTable.set, List.drop_set, List.drop_set,
      if_neg (Nat.not_lt.2 hid.base_le), if_neg (Nat.not_lt.2 hle), hindex]
    exact hset
  · exact le_of_le_of_eq h.base_le (List.length_set ..).symm
  · rw [AnchorTable.size, AnchorTable.size, AnchorTable.set, AnchorTable.set, List.length_set,
      List.length_set]
    exact h.size

/-- The next anchors of alike tables are alike. -/
theorem TablesAlike.reserve {t u : AnchorTable} (h : F.TablesAlike t u) :
    F.AnchorsAlike t.reserve.1 u.reserve.1 ∧ F.TablesAlike t.reserve.2 u.reserve.2 := by
  have hle : F.base + F.gap ≤ u.entries.length :=
    le_of_le_of_eq (Nat.add_le_add_right h.base_le F.gap) h.size.symm
  refine ⟨⟨h.base_le, h.size⟩, ?_, ?_, ?_⟩
  · rw [AnchorTable.reserve, AnchorTable.reserve, List.drop_append_of_le_length h.base_le,
      List.drop_append_of_le_length hle]
    exact List.rel_append h.entries (.cons .reserved .nil)
  · exact Nat.le_trans h.base_le (by simp [AnchorTable.reserve, AnchorTable.size])
  · have hsize := h.size
    simp only [AnchorTable.reserve, AnchorTable.size, List.length_append, List.length_singleton]
      at hsize ⊢
    omega

/-- The errors are the same, unless the anchors that they name may have other numbers. -/
def ErrorsAlike {ε : Type} (F : Fillings) (e e' : ε) : Prop :=
  F.gap = 0 → e' = e

/-- Errors about alike anchors are alike. -/
theorem AnchorsAlike.error {ε : Type} {id id' : AnchorId} (h : F.AnchorsAlike id id')
    (error : AnchorId → ε) : F.ErrorsAlike (error id) (error id') := by
  intro hgap
  obtain ⟨index⟩ := id
  obtain ⟨index'⟩ := id'
  obtain rfl : index' = index := h.moved.trans (by rw [hgap, Nat.add_zero])
  rfl

end Sql.Fillings

/-- The scopes differ at most in whether selected columns get aliases. -/
structure Scope.Alike (scope scope' : Scope) : Prop where
  kind : scope'.kind = scope.kind
  isRoot : scope'.isRoot = scope.isRoot
  hasFrom : scope'.hasFrom = scope.hasFrom

theorem Scope.Alike.refl (scope : Scope) : scope.Alike scope :=
  ⟨rfl, rfl, rfl⟩

/-! ## Steps -/

/-- Two runs of lowering, and what fills the holes in their outputs. -/
structure TwoRuns extends Fillings where
  /-- The surroundings of the first run. -/
  env : Environment
  /-- Whether the second run prunes nested views. -/
  prune : Bool
  /-- The texts in the statement of the second run, by those of the first one. -/
  rename : String → String
  texts : env.texts = none

namespace TwoRuns

/-- The surroundings of the second run. -/
def other (W : TwoRuns) : Environment :=
  { W.env with options := { W.env.options with pruneNestedViews := W.prune } }

/-- The states have the given scopes open. They differ only in what fills the holes, in the numbers
of anchors, and in what is below the innermost frames. -/
structure Related (W : TwoRuns) (σ : List Scope) (count : Nat) (s s' : State) : Prop where
  buffer : W.BuffersAlike count s.buffer s'.buffer
  anchors : W.TablesAlike s.anchors s'.anchors
  parameters : s'.parameters = s.parameters
  scopes : s.scopes = σ
  scopes' : List.Forall₂ Scope.Alike σ s'.scopes
  pending : Option.Rel W.AnchorsAlike s.pending s'.pending
  depth : s'.depth = s.depth
  issues : s'.issues = s.issues

/-- Where all anchors are compared and keep their numbers, both runs can start in any state. -/
theorem Related.same {W : TwoRuns} (hbase : W.base = 0) (hgap : W.gap = 0) (s : State) :
    W.Related s.scopes 0 s s where
  buffer := ⟨rfl, Nat.zero_le _, List.forall₂_same.2 fun f _ => .same hbase hgap f⟩
  anchors := by
    refine ⟨?_, hbase ▸ Nat.zero_le _, by rw [hgap, Nat.add_zero]⟩
    rw [hgap, Nat.add_zero]
    refine List.forall₂_same.2 fun entry _ => ?_
    cases entry with
    | reserved => exact .reserved
    | captured select =>
      refine .captured (List.forall₂_same.2 fun f _ => .same hbase hgap f) ?_
      cases select.condition with
      | none => exact .none
      | some f => exact .some (.same hbase hgap f)
    | resolved f => exact .resolved (.same hbase hgap f)
  parameters := rfl
  scopes := rfl
  scopes' := List.forall₂_same.2 fun scope _ => .refl scope
  pending := by
    cases s.pending with
    | none => exact .none
    | some id => exact .some ⟨by omega, by omega⟩
  depth := rfl
  issues := rfl

/-- The steps have ended in the same way and left related states. -/
structure Ends {α β : Type} (W : TwoRuns) (σ : List Scope) (count : Nat) (R : α → β → Prop)
    (p : Except LoweringError α × State) (q : Except LoweringError β × State) : Prop where
  result : RelatedOutcome W.ErrorsAlike R p.1 q.1
  state : W.Related σ count p.2 q.2

/-- From related states, the first step in the first run and the second step in the second run end
in the same way. -/
def Agree {α β : Type} (W : TwoRuns) (σ : List Scope) (x : Lowering α) (y : Lowering β)
    (R : α → β → Prop) : Prop :=
  ∀ count s s', W.Related σ count s s' → W.Ends σ count R (x W.env s) (y W.other s')

namespace Agree

variable {W : TwoRuns} {σ : List Scope} {α β α' β' : Type} {R : α → β → Prop}
  {Q : α' → β' → Prop} {x : Lowering α} {y : Lowering β} {next : α → Lowering α'}
  {next' : β → Lowering β'}

/-! ### Steps after steps -/

/-- Results that are related by themselves agree. -/
theorem pure {a : α} {b : β} (h : R a b) :
    W.Agree σ (Pure.pure a) (Pure.pure b) R :=
  fun _ _ _ hs => ⟨.ok h, hs⟩

/-- The rule for one step after another, on both sides. -/
theorem bind (h : W.Agree σ x y R)
    (hnext : ∀ a b, R a b → W.Agree σ (next a) (next' b) Q) :
    W.Agree σ (x >>= next) (y >>= next') Q := by
  intro count s s' hs
  obtain ⟨hresult, hstate⟩ := h count s s' hs
  rw [Lowering.bind_apply, Lowering.bind_apply]
  rcases hx : x W.env s with ⟨result, t⟩
  rcases hy : y W.other s' with ⟨result', t'⟩
  rw [hx, hy] at hresult hstate
  cases hresult with
  | ok hab => exact hnext _ _ hab count t t' hstate
  | error he => exact ⟨.error he, hstate⟩

/-- What is made of related results may be related, too. -/
theorem map {f : α → α'} {g : β → β'} (h : W.Agree σ x y R)
    (hfg : ∀ a b, R a b → Q (f a) (g b)) : W.Agree σ (f <$> x) (g <$> y) Q := by
  rw [map_eq_pure_bind, map_eq_pure_bind]
  exact h.bind fun a b hab => .pure (hfg a b hab)

/-- The rule for a step that is one of two, as the same condition decides in both runs. -/
theorem ite_bind {c : Prop} [Decidable c] {x x' : Lowering α} {y y' : Lowering β}
    (h : W.Agree σ (if c then x else x') (if c then y else y') R)
    (hnext : ∀ a b, R a b → W.Agree σ (next a) (next' b) Q) :
    W.Agree σ (if c then x >>= next else x' >>= next) (if c then y >>= next' else y' >>= next')
      Q := by
  by_cases hc : c
  · simp only [if_pos hc] at h ⊢
    exact h.bind hnext
  · simp only [if_neg hc] at h ⊢
    exact h.bind hnext

/-- The rule for a traversal of two lists that are made from one. -/
theorem mapM {γ δ δ' : Type} {l : List γ} {g : γ → δ} {g' : γ → δ'} {step : δ → Lowering α}
    {step' : δ' → Lowering β} (h : ∀ x ∈ l, W.Agree σ (step (g x)) (step' (g' x)) R) :
    W.Agree σ ((l.map g).mapM step) ((l.map g').mapM step') (List.Forall₂ R) := by
  induction l with
  | nil => exact .pure .nil
  | cons x l ih =>
    rw [List.map_cons, List.mapM_cons, List.map_cons, List.mapM_cons]
    refine (h x (List.mem_cons_self ..)).bind fun a b hab => ?_
    refine (ih fun y hy => h y (List.mem_cons_of_mem _ hy)).bind fun as bs hall => ?_
    exact .pure (.cons hab hall)

/-- The rule for steps over one list, seen in two ways. -/
theorem forM {γ δ δ' : Type} {l : List γ} {g : γ → δ} {g' : γ → δ'} {step : δ → Lowering Unit}
    {step' : δ' → Lowering Unit}
    (h : ∀ x ∈ l, W.Agree σ (step (g x)) (step' (g' x)) fun _ _ => True) :
    W.Agree σ ((l.map g).forM step) ((l.map g').forM step') fun _ _ => True := by
  induction l with
  | nil => exact .pure trivial
  | cons x l ih =>
    exact (h x (List.mem_cons_self ..)).bind fun _ _ _ =>
      ih fun y hy => h y (List.mem_cons_of_mem _ hy)

/-! ### Failing -/

/-- Both runs fail alike. -/
theorem fail {error : LoweringError} :
    W.Agree σ (Lowering.fail error) (Lowering.fail error) R :=
  fun _ _ _ hs => ⟨.error fun _ => rfl, hs⟩

theorem violate {violation : Violation} :
    W.Agree σ (Lowering.violate violation) (Lowering.violate violation) R :=
  fail

/-- Both runs are rejected alike. -/
theorem reject {fault : Fault} :
    W.Agree σ (Lowering.reject fault) (Lowering.reject fault) R := by
  intro count s s' hs
  refine ⟨.error fun _ => rfl, ?_⟩
  exact { hs with issues := congrArg (· ++ [fault.issue]) hs.issues }

/-- The rule for steps that are only taken if the statement is not at fault. -/
theorem guard {c c' : Prop} [Decidable c] [Decidable c'] {fault fault' : Fault}
    {next : Unit → Lowering α} {next' : Unit → Lowering β} (hc : c ↔ c')
    (hfault : fault = fault') (h : W.Agree σ (next ()) (next' ()) R) :
    W.Agree σ (if c then Lowering.reject fault >>= next else next ())
      (if c' then Lowering.reject fault' >>= next' else next' ()) R := by
  subst hfault
  by_cases hfails : c
  · rw [if_pos hfails, if_pos (hc.1 hfails)]
    exact (reject (R := fun _ _ => True)).bind fun _ _ _ => h
  · rw [if_neg hfails, if_neg fun h' => hfails (hc.2 h')]
    exact h

/-- The rule for answers that may be errors: they have to have the same outcome. -/
theorem ofExcept {answer : Except LoweringError α} {answer' : Except LoweringError β}
    (h : SameOutcome R answer answer') :
    W.Agree σ (Lowering.ofExcept answer) (Lowering.ofExcept answer') R :=
  fun _ _ _ hs => ⟨.ofSame h fun _ _ => rfl, hs⟩

/-- The catalog gives both runs the same answer. -/
theorem ofCatalog {answer : Except CatalogError α} :
    W.Agree σ (Lowering.ofCatalog answer) (Lowering.ofCatalog answer) Eq :=
  ofExcept ((SameOutcome.refl (fun _ => rfl) answer).mapError _)

/-- The rule for answers that may break a rule. -/
theorem ofRule {answer : Except Violation α} {answer' : Except Violation β}
    (h : SameOutcome R answer answer') :
    W.Agree σ (Lowering.ofRule answer) (Lowering.ofRule answer') R :=
  ofExcept (h.mapError _)

/-! ### Reading -/

/-- The runs have environments of their own. -/
theorem environment_bind {next : Environment → Lowering α} {next' : Environment → Lowering β}
    (h : W.Agree σ (next W.env) (next' W.other) R) :
    W.Agree σ (Lowering.environment >>= next) (Lowering.environment >>= next') R :=
  h

/-- The runs have one catalog. -/
theorem catalog_bind {next : Catalog → Lowering α} {next' : Catalog → Lowering β}
    (h : W.Agree σ (next W.env.catalog) (next' W.env.catalog) R) :
    W.Agree σ (Lowering.catalog >>= next) (Lowering.catalog >>= next') R :=
  h

/-- The rule for a step that reads the scope. The runs agree on all that matters about it. -/
theorem scope_bind {next : Scope → Lowering α} {next' : Scope → Lowering β}
    (h : ∀ scope, (σ.headD .outermost).Alike scope →
      W.Agree σ (next (σ.headD .outermost)) (next' scope) R) :
    W.Agree σ (Lowering.scope >>= next) (Lowering.scope >>= next') R := by
  intro count s s' hs
  have hscope : s.scope = σ.headD .outermost := by rw [State.scope, hs.scopes]
  have hscope' : (σ.headD .outermost).Alike s'.scope := by
    have hscopes := hs.scopes'
    rw [State.scope]
    generalize s'.scopes = σ' at hscopes ⊢
    cases hscopes with
    | nil => exact .refl _
    | cons hhead _ => exact hhead
  rw [Lowering.bind_apply, Lowering.bind_apply, Lowering.scope, Lowering.scope, hscope]
  exact h s'.scope hscope' count s s' hs

/-- Both runs are equally deep in selects. -/
theorem isOutermost_bind {next : Bool → Lowering α} {next' : Bool → Lowering β}
    (h : W.Agree σ (next σ.isEmpty) (next' σ.isEmpty) R) :
    W.Agree σ (Lowering.isOutermost >>= next) (Lowering.isOutermost >>= next') R := by
  intro count s s' hs
  have hempty : s'.scopes.isEmpty = σ.isEmpty := by
    rw [Bool.eq_iff_iff, List.isEmpty_iff_length_eq_zero, List.isEmpty_iff_length_eq_zero,
      hs.scopes'.length_eq]
  rw [Lowering.bind_apply, Lowering.bind_apply, Lowering.isOutermost, Lowering.isOutermost,
    hs.scopes, hempty]
  exact h count s s' hs

/-! ### Opening and closing -/

/-- The rule for a step one level deeper, on both sides. -/
theorem nested (h : W.Agree σ x y R) :
    W.Agree σ (Lowering.nested x) (Lowering.nested y) R := by
  intro count s s' hs
  rw [Lowering.nested, Lowering.nested, hs.depth]
  show W.Ends σ count R _ (if W.env.options.maxDepth.toNat < s.depth + 1 then _ else _)
  by_cases hdepth : W.env.options.maxDepth.toNat < s.depth + 1
  · rw [if_pos hdepth, if_pos hdepth]
    exact reject count s s' hs
  · rw [if_neg hdepth, if_neg hdepth]
    have hdeeper : W.Related σ count { s with depth := s.depth + 1 }
        { s' with depth := s.depth + 1 } :=
      { hs with depth := rfl }
    obtain ⟨hresult, hstate⟩ := h count _ _ hdeeper
    exact ⟨hresult, { hstate with depth := congrArg (· - 1) hstate.depth }⟩

/-- The rule for a step in a scope of its own, on both sides. -/
theorem withScope {scope scope' : Scope} (hscope : scope.Alike scope')
    (h : W.Agree (scope :: σ) x y R) :
    W.Agree σ (Lowering.withScope scope x) (Lowering.withScope scope' y) R := by
  intro count s s' hs
  have hopen : W.Related (scope :: σ) count { s with scopes := scope :: s.scopes }
      { s' with scopes := scope' :: s'.scopes } :=
    { hs with scopes := congrArg _ hs.scopes, scopes' := .cons hscope hs.scopes' }
  obtain ⟨hresult, hstate⟩ := h count _ _ hopen
  refine ⟨hresult, { hstate with scopes := congrArg List.tail hstate.scopes, scopes' := ?_ }⟩
  obtain ⟨_, rest, _, hrest, hscopes⟩ := List.forall₂_cons_left_iff.1 hstate.scopes'
  show List.Forall₂ Scope.Alike σ (List.tail _)
  rw [hscopes]
  exact hrest

/-- What is captured on both sides is alike. -/
theorem capture {x y : Lowering Unit} (h : W.Agree σ x y fun _ _ => True) :
    W.Agree σ (Lowering.capture x) (Lowering.capture y) W.FragmentsAlike := by
  intro count s s' hs
  have hopen : W.Related σ (count + 1) { s with buffer := s.buffer.pushFrame }
      { s' with buffer := s'.buffer.pushFrame } :=
    { hs with buffer := hs.buffer.pushFrame }
  obtain ⟨hresult, hstate⟩ := h (count + 1) _ _ hopen
  obtain ⟨houtput, hbuffer⟩ := hstate.buffer.popFrame
  exact ⟨hresult.map fun _ _ _ => houtput, { hstate with buffer := hbuffer }⟩

/-! ### Changing the state -/

/-- Alike output may be appended. -/
theorem append {f g : Fragment} (h : W.FragmentsAlike f g) :
    W.Agree σ (Lowering.append f) (Lowering.append g) fun _ _ => True :=
  fun _ _ _ hs => ⟨.ok trivial, { hs with buffer := hs.buffer.append h }⟩

/-- Both runs have the same parameters. -/
theorem bindParameter {parameter : Parameter} :
    W.Agree σ (Lowering.bindParameter parameter) (Lowering.bindParameter parameter) Eq := by
  intro count s s' hs
  rw [Lowering.bindParameter, Lowering.bindParameter, hs.parameters]
  cases s.parameters.bind parameter with
  | error conflict => exact ⟨.error fun _ => rfl, hs⟩
  | ok p => exact ⟨.ok rfl, { hs with parameters := rfl }⟩

/-- Both runs reserve the next anchor. -/
theorem reserveAnchor :
    W.Agree σ Lowering.reserveAnchor Lowering.reserveAnchor W.AnchorsAlike := by
  intro count s s' hs
  obtain ⟨hid, hanchors⟩ := hs.anchors.reserve
  exact ⟨.ok hid, { hs with anchors := hanchors, pending := .some hid }⟩

/-- An anchor is pending on both sides or on none. -/
theorem takePending :
    W.Agree σ Lowering.takePending Lowering.takePending (Option.Rel W.AnchorsAlike) :=
  fun _ _ _ hs => ⟨.ok hs.pending, { hs with pending := .none }⟩

/-- Alike parts may be put into alike anchors. -/
theorem captureAt {id id' : AnchorId} {select select' : CapturedSelect}
    (hid : W.AnchorsAlike id id') (hcolumns : W.ColumnsAlike select.columns select'.columns)
    (hcondition : Option.Rel W.FragmentsAlike select.condition select'.condition) :
    W.Agree σ (Lowering.captureAt id select) (Lowering.captureAt id' select')
      fun _ _ => True := by
  intro count s s' hs
  have hget := hs.anchors.get? hid
  have hset := hs.anchors.set hid (.captured hcolumns hcondition)
  have herror := hid.error fun id => LoweringError.internal (.anchor (.notAwaitingCapture id))
  rw [Lowering.captureAt, Lowering.captureAt, AnchorTable.capture, AnchorTable.capture]
  generalize s.anchors.get? id = entry at hget ⊢
  generalize s'.anchors.get? id' = entry' at hget ⊢
  cases hget with
  | none => exact ⟨.error herror, hs⟩
  | some hentry =>
    cases hentry with
    | reserved => exact ⟨.ok trivial, { hs with anchors := hset }⟩
    | captured | resolved => exact ⟨.error herror, hs⟩

/-- Alike anchors hold alike parts. -/
theorem takeCapture {id id' : AnchorId} (hid : W.AnchorsAlike id id') :
    W.Agree σ (Lowering.takeCapture id) (Lowering.takeCapture id') fun select select' =>
      W.ColumnsAlike select.columns select'.columns
        ∧ Option.Rel W.FragmentsAlike select.condition select'.condition := by
  intro count s s' hs
  have hget := hs.anchors.get? hid
  have hset := hs.anchors.set hid .reserved
  have herror := hid.error fun id => LoweringError.internal (.anchor (.notCaptured id))
  rw [Lowering.takeCapture, Lowering.takeCapture, AnchorTable.takeCapture, AnchorTable.takeCapture]
  generalize s.anchors.get? id = entry at hget ⊢
  generalize s'.anchors.get? id' = entry' at hget ⊢
  cases hget with
  | none => exact ⟨.error herror, hs⟩
  | some hentry =>
    cases hentry with
    | captured hcolumns hcondition =>
      exact ⟨.ok ⟨hcolumns, hcondition⟩, { hs with anchors := hset }⟩
    | reserved | resolved => exact ⟨.error herror, hs⟩

/-- Alike anchors may be resolved with alike texts. -/
theorem resolveAnchor {id id' : AnchorId} {f g : Fragment} (hid : W.AnchorsAlike id id')
    (h : W.FragmentsAlike f g) :
    W.Agree σ (Lowering.resolveAnchor id f) (Lowering.resolveAnchor id' g)
      fun _ _ => True := by
  intro count s s' hs
  have hget := hs.anchors.get? hid
  have hset := hs.anchors.set hid (.resolved h)
  have herror := hid.error fun id => LoweringError.internal (.anchor (.notResolvable id))
  rw [Lowering.resolveAnchor, Lowering.resolveAnchor, AnchorTable.resolve, AnchorTable.resolve]
  generalize s.anchors.get? id = entry at hget ⊢
  generalize s'.anchors.get? id' = entry' at hget ⊢
  cases hget with
  | none => exact ⟨.error herror, hs⟩
  | some hentry =>
    cases hentry with
    | resolved => exact ⟨.error herror, hs⟩
    | reserved | captured => exact ⟨.ok trivial, { hs with anchors := hset }⟩

end Agree

end TwoRuns

end EntitySql
