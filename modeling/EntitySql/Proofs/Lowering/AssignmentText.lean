import EntitySql.Proofs.Lowering.ChangeText

/-!
# The texts of assignments

An assignment is written as a group of columns and a group of values, one for each column. The
columns are those of the property and do not depend on the state; the values are what the expression
is lowered to, in the state that the assignments before it have left. `AssignmentsGive` follows a
run through all assignments of a statement, and `exists_groups` finds the groups in every run.
-/

namespace EntitySql

open Lowering
open Sql (AnchorTable Columns Fragment bracketed qualified)

/-! ## Groups of texts -/

/-- The text of a column as the target of an assignment. A class without a column is written as its
number. -/
def ColumnSource.target : ColumnSource → String
  | .column name => bracketed name
  | .classId id => id.text

/-- The texts of the columns of a property, as the target of an assignment. -/
def PropertyName.targets (catalog : Catalog) (p : PropertyName) : List String :=
  match p.target with
  | .derived columns => columns.map (qualified p.aliasName)
  | .ofClass id =>
    match catalog.classMap id with
    | .ok map => (map.property p.access).map (·.source.target)
    | .error _ => []

/-- In this state the expression is lowered to columns with these texts, which leads to the other
state. -/
def Exp.GivesTexts (env : Environment) (s : State) (e : Exp) (texts : List String) (s' : State) :
    Prop :=
  ∃ columns, e.lower env s = (.ok columns, s')
    ∧ List.Forall₂ (s'.anchors.render · = .ok ·) columns texts

/-- The columns of an assignment and the values that they get. -/
structure TargetGroup where
  columns : List String
  values : List String

/-- The columns with their values, as an update writes them. -/
def TargetGroup.settings (group : TargetGroup) : List String :=
  List.zipWith (fun column value => column ++ "=" ++ value) group.columns group.values

/-- The texts of the new values of a property with some columns. A bare `NULL` is written for each
of them. -/
def Exp.newValues (e : Exp) (width : Nat) (texts : List String) : List String :=
  if e.isNull then List.replicate width (if e.isParenthesized then "(NULL)" else "NULL") else texts

/-- An assignment is written as this group: there are columns, and for each one a value. -/
structure Assignment.Gives (env : Environment) (a : Assignment) (s : State) (group : TargetGroup)
    (s' : State) : Prop where
  columns : group.columns = a.property.targets env.catalog
  ne_nil : group.columns ≠ []
  length : group.values.length = group.columns.length
  values : ∃ texts, a.value.GivesTexts env s texts s'
    ∧ group.values = a.value.newValues group.columns.length texts

/-- Assignments are written as these groups, one after the other. -/
inductive AssignmentsGive (env : Environment) :
    List Assignment → State → List TargetGroup → State → Prop
  | nil (s : State) : AssignmentsGive env [] s [] s
  | cons {a : Assignment} {as : List Assignment} {s s' s'' : State} {group : TargetGroup}
      {groups : List TargetGroup} (head : a.Gives env s group s')
      (tail : AssignmentsGive env as s' groups s'') :
      AssignmentsGive env (a :: as) s (group :: groups) s''

namespace AssignmentsGive

variable {env : Environment} {as : List Assignment} {s s' : State} {groups : List TargetGroup}

/-- There are as many new values as columns. -/
theorem length_flatMap (h : AssignmentsGive env as s groups s') :
    (groups.flatMap (·.values)).length = (groups.flatMap (·.columns)).length := by
  induction h with
  | nil => rfl
  | cons head _ ih =>
    rw [List.flatMap_cons, List.flatMap_cons, List.length_append, List.length_append, head.length, ih]

/-- The columns are those of the properties, in their order. -/
theorem flatMap_columns (h : AssignmentsGive env as s groups s') :
    groups.flatMap (·.columns) = as.flatMap (·.property.targets env.catalog) := by
  induction h with
  | nil => rfl
  | cons head _ ih => rw [List.flatMap_cons, List.flatMap_cons, head.columns, ih]

end AssignmentsGive

/-! ## Runs -/

namespace Lowering

variable {env : Environment} {s s' : State} {a : Assignment} {t : AnchorTable}

/-- The columns and values of an assignment render to the texts of a group. -/
structure RendersTo (t : AnchorTable) (pair : Columns × Columns) (group : TargetGroup) : Prop where
  columns : List.Forall₂ (t.render · = .ok ·) pair.1 group.columns
  values : List.Forall₂ (t.render · = .ok ·) pair.2 group.values

/-- Outside of selects, columns are named without a class. -/
theorem propertyColumn_of_ne {kind : StatementKind} (hkind : kind ≠ .select) (aliasName : String)
    (column : MappedColumn) : propertyColumn aliasName kind column = column.source.target := by
  rw [propertyColumn, if_neg hkind]
  cases column.source <;> rfl

/-- The columns of a property that is assigned to are its targets. -/
theorem property_eq_ok {p : PropertyName} {columns : Columns} (hkind : s.scope.kind ≠ .select)
    (h : property p env s = (.ok columns, s')) :
    s' = s ∧ columns = (p.targets env.catalog).map Fragment.ofText := by
  obtain ⟨aliasName, path, target, type⟩ := p
  cases target with
  | derived names =>
    obtain ⟨rfl, rfl⟩ := eq_of_pure h
    refine ⟨rfl, ?_⟩
    rw [PropertyName.targets, List.map_map]
    rfl
  | ofClass id =>
    change (ofCatalog (env.catalog.classMap id) >>= _) env s = _ at h
    obtain ⟨map, _, hlookup, hfound⟩ := bind_eq_ok.1 h
    obtain ⟨hmap, rfl⟩ := ofCatalog_eq_ok hlookup
    simp only [PropertyName.targets, hmap]
    cases hcolumns : map.property (PropertyName.access ⟨aliasName, path, .ofClass id, type⟩) with
    | nil =>
      rw [hcolumns] at hfound
      obtain ⟨_, _, _, hfail⟩ := bind_eq_ok.1 hfound
      cases (Prod.mk.inj hfail).1
    | cons first rest =>
      rw [hcolumns] at hfound
      obtain ⟨scope, _, hscope, hpure⟩ := bind_eq_ok.1 hfound
      obtain ⟨hscope', rfl⟩ := Prod.mk.inj hscope
      obtain rfl := Except.ok.inj hscope'
      obtain ⟨rfl, rfl⟩ := eq_of_pure hpure
      refine ⟨rfl, ?_⟩
      rw [List.map_map]
      exact List.map_congr_left fun column _ =>
        congrArg Fragment.ofText (propertyColumn_of_ne hkind aliasName column)

/-- An answer that may break a rule leaves the state as it is. -/
theorem ofRule_eq_ok {α : Type} {result : Except Violation α} {x : α}
    (h : ofRule result env s = (.ok x, s')) : result = .ok x ∧ s' = s := by
  obtain ⟨hresult, hstate⟩ := Prod.mk.inj h
  cases result with
  | error violation => cases hresult
  | ok found => exact ⟨congrArg _ (Except.ok.inj hresult), hstate.symm⟩

theorem forall₂_render_ofText (t : AnchorTable) (texts : List String) :
    List.Forall₂ (t.render · = .ok ·) (texts.map Fragment.ofText) texts := by
  rw [List.forall₂_map_left_iff]
  exact List.forall₂_same.2 fun x _ => AnchorTable.render_ofText x

/-- Columns that were lowered have texts as soon as their anchors are there. -/
theorem exists_texts_of_lower {e : Exp} {columns : Columns} (hs : s.pending = none)
    (h : e.lower env s = (.ok columns, s')) :
    ∃ texts, List.Forall₂ (s'.anchors.render · = .ok ·) columns texts := by
  have hall : ∀ f ∈ columns, ∃ x, s'.anchors.render f = .ok x := by
    have hsuccess := Setting.success_fit (S := .unnamed env s'.anchors) (p := ⟨.nesting, False⟩)
      False.elim id False.elim ⟨hs, False.elim⟩ h
    intro f hf
    obtain ⟨x, hx, -⟩ := (hsuccess.result (AnchorTable.le_refl _) f hf).fits.renderWithin
    exact ⟨x, hx⟩
  obtain ⟨texts, htexts⟩ := Except.exists_mapM_eq_ok.2 hall
  exact ⟨texts, Except.mapM_eq_ok.1 htexts⟩

/-- A property keeps its columns where a value meets it, and a bare `NULL` takes their number. -/
theorem eq_of_align_property {p : PropertyName} {e : Exp} {ls rs : Columns}
    {pair : Columns × Columns} (h : align (.property p) ls e rs = .ok pair) :
    pair.1 = ls ∧ pair.2.length = pair.1.length
      ∧ pair.2 = if e.isNull then nullColumns e.isParenthesized ls.length else rs := by
  unfold align at h
  extract_lets lhs rhs at h
  split at h
  next hlength =>
    obtain rfl := Except.ok.inj h
    have hproperty : Exp.isNull (.property p) = false := rfl
    refine ⟨?_, hlength.symm, ?_⟩
    · simp [lhs, hproperty]
    · simp [rhs, hproperty]
  next => cases h

/-- The texts of new values, with `NULL` once for each column. -/
theorem render_newValues (e : Exp) (width : Nat) {columns : Columns} {texts : List String}
    (h : List.Forall₂ (t.render · = .ok ·) columns texts) :
    List.Forall₂ (t.render · = .ok ·)
      (if e.isNull then nullColumns e.isParenthesized width else columns)
      (e.newValues width texts) := by
  rw [Exp.newValues]
  cases e.isNull with
  | false => exact h
  | true =>
    have hnull : nullColumns e.isParenthesized width
        = (List.replicate width (if e.isParenthesized then "(NULL)" else "NULL")).map
          Fragment.ofText := by
      rw [nullColumns, List.map_replicate]
      cases e.isParenthesized <;> rfl
    rw [if_pos rfl, if_pos rfl, hnull]
    exact forall₂_render_ofText t _

/-- An assignment of a change that goes well gives a group. -/
theorem exists_group {pair : Columns × Columns} (hs : s.pending = none)
    (hkind : s.scope.kind ≠ .select) (h : assignment a env s = (.ok pair, s')) :
    s.Keeps s' ∧ ∃ group, a.Gives env s group s' ∧ RendersTo s'.anchors pair group := by
  obtain ⟨columns, _, hproperty, hvalueRun⟩ := bind_eq_ok.1 h
  obtain ⟨rfl, rfl⟩ := property_eq_ok hkind hproperty
  obtain ⟨values, s₁, hvalue, halignRun⟩ := bind_eq_ok.1 hvalueRun
  obtain ⟨⟨columns, aligned⟩, _, hrule, hcheck⟩ := bind_eq_ok.1 halignRun
  obtain ⟨halign, rfl⟩ := ofRule_eq_ok hrule
  obtain ⟨rfl, hlength, rfl⟩ := eq_of_align_property halign
  dsimp only at hcheck
  by_cases hnil : a.property.targets env.catalog = []
  · rw [hnil] at hcheck
    obtain ⟨_, _, hviolate, -⟩ := bind_eq_ok.1 hcheck
    cases (Prod.mk.inj hviolate).1
  · have hne : ((a.property.targets env.catalog).map Fragment.ofText).isEmpty = false := by
      rw [List.isEmpty_eq_false_iff, ne_eq, List.map_eq_nil_iff]
      exact hnil
    rw [hne] at hcheck
    obtain ⟨rfl, rfl⟩ := eq_of_pure hcheck
    obtain ⟨texts, htexts⟩ := exists_texts_of_lower hs hvalue
    rw [List.length_map] at hlength
    have hvalues := render_newValues a.value (a.property.targets env.catalog).length htexts
    refine ⟨Exp.keeps_of_lower hs hvalue, ⟨a.property.targets env.catalog, _⟩,
      ⟨rfl, hnil, hvalues.length_eq.symm.trans hlength, texts, ⟨values, hvalue, htexts⟩, rfl⟩,
      forall₂_render_ofText _ _, ?_⟩
    rw [List.length_map]
    exact hvalues

/-- Later steps only add to the anchors. -/
theorem RendersTo.of_le {u : AnchorTable} {pair : Columns × Columns} {group : TargetGroup}
    (h : RendersTo t pair group) (hle : t ≤ u) : RendersTo u pair group :=
  ⟨h.columns.imp fun _ _ => AnchorTable.render_of_le hle,
    h.values.imp fun _ _ => AnchorTable.render_of_le hle⟩

/-- Each column is set to its value. -/
theorem RendersTo.settings {pair : Columns × Columns} {group : TargetGroup}
    (h : RendersTo t pair group) :
    List.Forall₂ (t.render · = .ok ·)
      (List.zipWith (fun (column value : Fragment) => column ++ "=" ++ value) pair.1 pair.2)
      group.settings := by
  obtain ⟨columns, values⟩ := pair
  obtain ⟨names, texts⟩ := group
  obtain ⟨hcolumns, hvalues⟩ := h
  dsimp only at hcolumns hvalues
  induction hcolumns generalizing values texts with
  | nil => exact .nil
  | cons hcolumn _ ih =>
    cases hvalues with
    | nil => exact .nil
    | cons hvalue hvalues =>
      have hset := AnchorTable.render_append hcolumn (AnchorTable.render_ofText "=")
      exact .cons (AnchorTable.render_append hset hvalue) (ih _ _ hvalues)

/-- Assignments of a change that go well give groups, one for each of them. -/
theorem exists_groups {as : List Assignment} {pairs : List (Columns × Columns)}
    (hs : s.pending = none) (hkind : s.scope.kind ≠ .select)
    (h : as.mapM assignment env s = (.ok pairs, s')) :
    s.Keeps s' ∧ ∃ groups, AssignmentsGive env as s groups s'
      ∧ List.Forall₂ (RendersTo s'.anchors) pairs groups := by
  induction as generalizing s pairs with
  | nil =>
    obtain ⟨rfl, rfl⟩ := eq_of_pure h
    exact ⟨.refl s', [], .nil s', .nil⟩
  | cons a as ih =>
    rw [List.mapM_cons] at h
    obtain ⟨pair, s₁, hhead, hrest⟩ := bind_eq_ok.1 h
    obtain ⟨hkeeps, group, hgroup, hrenders⟩ := exists_group hs hkind hhead
    obtain ⟨rest, _, htail, hpure⟩ := bind_eq_ok.1 hrest
    obtain ⟨rfl, rfl⟩ := eq_of_pure hpure
    have hkind₁ : s₁.scope.kind ≠ .select := by
      rw [State.scope, hkeeps.scopes]
      exact hkind
    obtain ⟨hkeeps', groups, hgroups, hall⟩ := ih (hkeeps.pending.trans hs) hkind₁ htail
    exact ⟨hkeeps.trans hkeeps', group :: groups, .cons hgroup hgroups,
      .cons (hrenders.of_le (AnchorTable.le_of_prefix hkeeps'.anchors)) hall⟩

end Lowering

/-- The assignments of an update are written as groups. -/
theorem Update.Assigns.exists_groups {env : Environment} {change : Update} {text : String} {s : State}
    (h : change.Assigns env text s) :
    ∃ groups, AssignmentsGive env change.assignments (.changing .update) groups s
      ∧ text = ",".intercalate (groups.flatMap (·.settings)) := by
  obtain ⟨t, pairs, hpairs, hle, hrender⟩ := h
  have hkind : StatementKind.update ≠ .select := by decide
  obtain ⟨-, groups, hgroups, hall⟩ :=
    Lowering.exists_groups (s := .changing .update) rfl hkind hpairs
  refine ⟨groups, hgroups, Except.ok.inj (hrender.symm.trans ?_)⟩
  exact AnchorTable.render_join_eq_ok.2
    ⟨_, List.rel_flatMap hall fun _ _ h => (h.of_le hle).settings, rfl⟩

end EntitySql
