import EntitySql.Proofs.Parameters.Shown
import EntitySql.Proofs.Reuse
import EntitySql.Proofs.WellFormed

/-!
# The map of parameters and the SQL

A lowered statement comes with a map from its parameters to those of the database. The map has one
binding for each parameter, and the SQL is made of the names in it. Wherever on the way a parameter
is lowered, its columns are the names that the map has for it at the end, in their order; and
lowering the statement once more, with the map there from the start, gives the same SQL and leaves
the map as it is. No name in the map is missing in the SQL, wherever its parameter was written: next
to a `NULL`, in a comparison of which a part is left out, or in the condition of a subquery that is
made later.
-/

namespace EntitySql

/-! ## Lowering with the map of the end -/

namespace ParameterMap

variable {t m : ParameterMap} {p : Parameter}

/-- A parameter is bound to as many names as its type has columns. -/
theorem length_of_bind {r : List String × ParameterMap} (hr : t.bind p = .ok r) :
    r.1.length = p.type.columnCount := by
  rcases bind_eq_ok hr with ⟨-, hwidth, -⟩ | ⟨-, rfl⟩
  · exact hwidth
  · exact p.length_nativeNames

/-- A parameter that was bound is found in whatever the map grows to. -/
theorem bind_of_isPrefix {r : List String × ParameterMap} (hr : t.bind p = .ok r)
    (hm : r.2.bindings <+: m.bindings) : m.bind p = .ok (r.1, m) := by
  rw [bind_of_some (get?_of_isPrefix hm (get?_of_bind hr)), if_pos (length_of_bind hr)]

/-- Parameters that were bound one after the other each got, in their turn, the names that they have
at the end. -/
theorem exists_turn {before after : List Parameter} (h : t.bindAll (before ++ p :: after) = .ok m) :
    ∃ t' names u, t.bindAll before = .ok t' ∧ t'.bindings <+: m.bindings
      ∧ t'.bind p = .ok (names, u)
      ∧ m.get? p.key = some names ∧ names.length = p.type.columnCount := by
  rw [bindAll_append] at h
  obtain ⟨t', ht', hrest⟩ := Except.bind_eq_ok.1 h
  obtain ⟨⟨names, u⟩, hr, hafter⟩ := bindAll_cons_eq_ok.1 hrest
  have hget := get?_of_isPrefix (prefix_of_bindAll hafter) (get?_of_bind hr)
  exact ⟨t', names, u, ht', prefix_of_bindAll hrest, hr, hget, length_of_bind hr⟩

/-- At every stage on the way to a map, a parameter gets the names that the map has for it. -/
theorem exists_bind_of_isPrefix (ht : t.bindings <+: m.bindings)
    (hp : m.get? p.key = some p.nativeNames) : ∃ u, t.bind p = .ok (p.nativeNames, u) := by
  cases hown : t.get? p.key with
  | none => exact ⟨t.push p, bind_of_none hown⟩
  | some names =>
    obtain rfl := Option.some.inj ((get?_of_isPrefix ht hown).symm.trans hp)
    exact ⟨t, by rw [bind_of_some hown, if_pos p.length_nativeNames]⟩

/-- The keys of a map are those of the parameters that were bound. -/
theorem keys_of_bindAll {ps : List Parameter} (h : empty.bindAll ps = .ok m) (key : ParameterKey) :
    key ∈ m.keys ↔ ∃ p ∈ ps, p.key = key := by
  have hbound : m.BoundBy (· ∈ ps) := boundBy_empty.bindAll (fun _ hp => hp) h
  constructor
  · intro hkey
    obtain ⟨b, hb, rfl⟩ := List.mem_map.1 hkey
    obtain ⟨p, hp, rfl⟩ := hbound b hb
    exact ⟨p, hp, rfl⟩
  · rintro ⟨p, hp, rfl⟩
    have hget := get?_of_bindAll boundBy_empty (fun _ hp => hp) h p hp
    by_contra hnone
    rw [get?_eq_none.2 hnone] at hget
    cases hget

end ParameterMap

namespace Composed

open Lowering

variable {α : Type} {events : List Event} {x : Lowering α} {env : Environment} {s s' : State}
  {a : α} {m : ParameterMap}

/-- A step that goes well binds the parameters among its events, in their order. -/
theorem bindAll (h : Composed env events x) (hrun : x env s = (.ok a, s')) :
    s.parameters.bindAll (events.filterMap Event.parameter?) = .ok s'.parameters := by
  induction h generalizing s s' with
  | basic h _ =>
    have hsame := h.parameters env s
    rw [hrun] at hsame
    exact congrArg _ hsame.symm
  | failing _ _ hfails =>
    obtain ⟨error, herror⟩ := hfails env s
    rw [hrun] at herror
    cases herror
  | @bind _ _ x next _ _ _ _ ih ihnext =>
    rw [bind_apply] at hrun
    rcases hx : x env s with ⟨_ | b, s₁⟩ <;> rw [hx] at hrun
    · cases (Prod.mk.inj hrun).1
    · rw [List.filterMap_append, ParameterMap.bindAll_append, ih hx]
      exact ihnext b hrun
  | reading _ _ ih => exact ih hrun
  | checkFunction name =>
    rw [checkFunction_apply] at hrun
    split at hrun
    · cases (Prod.mk.inj hrun).1
    · rw [← (Prod.mk.inj hrun).2]
      rfl
  | checkExperimental name =>
    rw [checkExperimental_apply] at hrun
    split at hrun
    · rw [← (Prod.mk.inj hrun).2]
      rfl
    · cases (Prod.mk.inj hrun).1
  | bindParameter p =>
    rw [Lowering.bindParameter] at hrun
    show s.parameters.bindAll [p] = _
    rw [ParameterMap.bindAll_singleton]
    cases hbind : s.parameters.bind p with
    | error _ =>
      rw [hbind] at hrun
      cases (Prod.mk.inj hrun).1
    | ok r =>
      rw [hbind] at hrun
      rw [← (Prod.mk.inj hrun).2]
      rfl
  | @nested _ x _ _ ih =>
    rw [Lowering.nested] at hrun
    split at hrun
    · cases (Prod.mk.inj hrun).1
    · obtain ⟨ha, rfl⟩ := Prod.mk.inj hrun
      have hbody := ih (s := { s with depth := s.depth + 1 }) (Prod.ext ha rfl)
      exact hbody
  | @withScope _ scope x _ _ ih =>
    obtain ⟨ha, rfl⟩ := Prod.mk.inj hrun
    have hbody := ih (s := { s with scopes := scope :: s.scopes }) (Prod.ext ha rfl)
    exact hbody
  | @capture x _ _ ih =>
    unfold Lowering.capture at hrun
    rcases hx : x env { s with buffer := s.buffer.pushFrame } with ⟨_ | b, s₁⟩ <;>
      simp only [hx] at hrun
    · cases (Prod.mk.inj hrun).1
    · obtain ⟨-, rfl⟩ := Prod.mk.inj hrun
      have hbody := ih hx
      exact hbody

/-- A step that went well goes the same way if all that it bound is there from the start. -/
theorem run_known (h : Composed env events x) (hrun : x env s = (.ok a, s'))
    (hm : s'.parameters.bindings <+: m.bindings) :
    x env { s with parameters := m } = (.ok a, { s' with parameters := m }) := by
  induction h generalizing s s' with
  | basic h _ | failing h _ _ =>
    have hledger := h.ledger env s m []
    rw [hrun] at hledger
    exact hledger
  | @bind _ _ x next _ _ _ hnext ih ihnext =>
    rw [bind_apply] at hrun ⊢
    rcases hx : x env s with ⟨_ | b, s₁⟩ <;> rw [hx] at hrun
    · cases (Prod.mk.inj hrun).1
    · change next b env s₁ = _ at hrun
      have hgrows := ParameterMap.prefix_of_bindAll ((hnext b).bindAll hrun)
      rw [ih hx (hgrows.trans hm)]
      exact ihnext b hrun hm
  | reading _ _ ih => exact ih hrun hm
  | checkFunction name =>
    rw [checkFunction_apply] at hrun ⊢
    split at hrun
    · cases (Prod.mk.inj hrun).1
    next hallowed =>
      obtain ⟨hok, rfl⟩ := Prod.mk.inj hrun
      rw [if_neg hallowed, hok]
  | checkExperimental name =>
    rw [checkExperimental_apply] at hrun ⊢
    split at hrun
    next hallowed =>
      obtain ⟨hok, rfl⟩ := Prod.mk.inj hrun
      rw [if_pos hallowed, hok]
    · cases (Prod.mk.inj hrun).1
  | bindParameter p =>
    rw [Lowering.bindParameter] at hrun ⊢
    cases hbind : s.parameters.bind p with
    | error _ =>
      rw [hbind] at hrun
      cases (Prod.mk.inj hrun).1
    | ok r =>
      rw [hbind] at hrun
      obtain ⟨hok, rfl⟩ := Prod.mk.inj hrun
      rw [ParameterMap.bind_of_isPrefix hbind hm, ← hok]
  | @nested _ x _ _ ih =>
    rw [Lowering.nested] at hrun ⊢
    split at hrun
    · cases (Prod.mk.inj hrun).1
    next hdepth =>
      obtain ⟨ha, rfl⟩ := Prod.mk.inj hrun
      have hknown := ih (s := { s with depth := s.depth + 1 }) (Prod.ext ha rfl) hm
      dsimp only at hknown
      rw [if_neg hdepth, hknown]
  | @withScope _ scope x _ _ ih =>
    obtain ⟨ha, rfl⟩ := Prod.mk.inj hrun
    have hknown := ih (s := { s with scopes := scope :: s.scopes }) (Prod.ext ha rfl) hm
    dsimp only at hknown
    rw [Lowering.withScope, hknown]
  | @capture x _ _ ih =>
    unfold Lowering.capture at hrun ⊢
    rcases hx : x env { s with buffer := s.buffer.pushFrame } with ⟨_ | b, s₁⟩ <;>
      simp only [hx] at hrun
    · cases (Prod.mk.inj hrun).1
    · obtain ⟨ha, rfl⟩ := Prod.mk.inj hrun
      have hknown := ih hx hm
      dsimp only at hknown
      rw [hknown]
      exact congrArg (·, _) ha

end Composed

/-! ## The columns of a parameter -/

/-- A parameter can stand at this place: it is not too deep there, and the parameter has a name if
this is where values are written. -/
def Parameter.CanStand (p : Parameter) (env : Environment) (s : State) : Prop :=
  s.depth < env.options.maxDepth.toNat
    ∧ (p.name = none → s.scope.kind ≠ .insert ∧ s.scope.kind ≠ .update)

section Columns

variable {env : Environment} {p : Parameter} {s : State} {names : List String} {m : ParameterMap}
  {columns : Sql.Columns}

/-- A step goes well one level deeper if that is not too deep, and if the step itself goes well. -/
theorem Lowering.nested_eq_ok_iff {α : Type} {step : Lowering α} {a : α} :
    (Lowering.nested step env s).1 = .ok a
      ↔ s.depth < env.options.maxDepth.toNat
        ∧ (step env { s with depth := s.depth + 1 }).1 = .ok a := by
  rw [Lowering.nested]
  split
  next hdeep =>
    refine ⟨fun h => ?_, fun h => absurd h.1 (by omega)⟩
    cases h
  next hallowed => exact ⟨fun h => ⟨by omega, h⟩, fun h => h.2⟩

/-- A parameter that can be bound has its names as columns, in their order, unless it has no name
and stands where values are written. -/
theorem Lowering.parameter_eq_ok_iff (hbind : s.parameters.bind p = .ok (names, m)) :
    (Lowering.parameter p env s).1 = .ok columns
      ↔ (p.name = none → s.scope.kind ≠ .insert ∧ s.scope.kind ≠ .update)
        ∧ columns = names.map Sql.Fragment.ofText := by
  have hplace : (p.name.isNone && (s.scope.kind = .insert || s.scope.kind = .update)) = true
      ↔ ¬(p.name = none → s.scope.kind ≠ .insert ∧ s.scope.kind ≠ .update) := by
    simp [or_iff_not_imp_left]
  simp only [Lowering.parameter, Lowering.bind_apply, Lowering.scope]
  split
  next hunnamed =>
    refine ⟨fun h => ?_, fun h => absurd h.1 (hplace.1 hunnamed)⟩
    cases h
  next hnamed =>
    simp only [Lowering.bind_apply, Lowering.bindParameter, hbind, Lowering.pure_apply]
    have hstands := not_not.1 (mt hplace.2 hnamed)
    refine ⟨fun h => ⟨hstands, (Except.ok.inj h).symm⟩, fun h => ?_⟩
    rw [h.2]

/-- A parameter that can be bound is lowered exactly where it can stand, to its names in their
order. -/
theorem Exp.lower_parameter_eq_ok_iff (hbind : s.parameters.bind p = .ok (names, m)) :
    ((Exp.parameter p).lower env s).1 = .ok columns
      ↔ p.CanStand env s ∧ columns = names.map Sql.Fragment.ofText := by
  have hbody : (Exp.parameter p).body = Lowering.parameter p := by rw [Exp.body]
  have hdeeper : { s with depth := s.depth + 1 }.parameters.bind p = .ok (names, m) := hbind
  rw [Exp.lower, hbody, Lowering.nested_eq_ok_iff, Lowering.parameter_eq_ok_iff hdeeper,
    Parameter.CanStand, and_assoc]
  rfl

end Columns

/-! ## Lowered statements -/

/-- The map of parameters of a lowered statement agrees with the statement and with the SQL. -/
structure LoweredStatement.ParametersAgree (lowered : LoweredStatement) (env : Environment)
    (statement : Statement) : Prop where
  /-- The parameters that were lowered are all that stand in the statement, but for those in
  arguments that are not written. -/
  mem_parameters : statement.WritesArguments env.functions →
    ∀ p, p ∈ statement.parameters env.functions ↔ statement.Mentions p
  /-- The map comes from binding them in their order. -/
  bound : ParameterMap.empty.bindAll (statement.parameters env.functions) = .ok lowered.parameters
  /-- No key has two bindings. -/
  nodup_keys : lowered.parameters.keys.Nodup
  /-- The keys are those of the parameters that were lowered. -/
  mem_keys : ∀ key, key ∈ lowered.parameters.keys
    ↔ ∃ p ∈ statement.parameters env.functions, p.key = key
  /-- In its turn the map was on the way to that of the end, and each parameter got the names that
  its key has at the end. They are as many as its type has columns. -/
  turn : ∀ before p after, statement.parameters env.functions = before ++ p :: after →
    ∃ m names m', ParameterMap.empty.bindAll before = .ok m
      ∧ m.bindings <+: lowered.parameters.bindings ∧ m.bind p = .ok (names, m')
      ∧ lowered.parameters.get? p.key = some names ∧ names.length = p.type.columnCount
  /-- At every stage of the map, the node of a parameter has as its columns the names that its key
  has at the end, in their order and as many as its type has columns. -/
  columns : ∀ p ∈ statement.parameters env.functions, ∃ names,
    lowered.parameters.get? p.key = some names ∧ names.length = p.type.columnCount
      ∧ ∀ s, s.parameters.bindings <+: lowered.parameters.bindings → ∀ columns,
        ((Exp.parameter p).lower env s).1 = .ok columns
          ↔ p.CanStand env s ∧ columns = names.map Sql.Fragment.ofText
  /-- With the map there from the start, the statement is lowered to the same SQL, and nothing is
  added to the map. -/
  replay : (statement.prepare env { State.initial with parameters := lowered.parameters }).1
      = .ok lowered.sql
    ∧ (statement.prepare env
        { State.initial with parameters := lowered.parameters }).2.parameters = lowered.parameters
  /-- No name in the map is missing in the SQL. -/
  occurs : ∀ b ∈ lowered.parameters.bindings, ∀ x ∈ b.nativeNames, Sql.Occurs x lowered.sql
  /-- Parameters with one key are of the same width. -/
  width : ∀ p ∈ statement.parameters env.functions, ∀ q ∈ statement.parameters env.functions,
    p.key = q.key → p.type.columnCount = q.type.columnCount

namespace Statement

variable {statement : Statement} {env : Environment} {lowered : LoweredStatement} {s : State}

/-- A statement that is lowered was written and finished. -/
theorem exists_run_of_lower (h : (statement.lower env).1 = .ok lowered) :
    ¬(!env.primary && statement.kind ≠ .select) = true
      ∧ ∃ s, (do statement.write; finish) env .initial = (.ok lowered.sql, s)
        ∧ s.parameters = lowered.parameters := by
  rw [lower] at h
  rcases hprepare : statement.prepare env .initial with ⟨_ | sql, s⟩ <;> rw [hprepare] at h
  · cases h
  · obtain rfl := Except.ok.inj h
    rw [prepare] at hprepare
    split at hprepare
    · cases (Prod.mk.inj hprepare).1
    next hallowed =>
      obtain ⟨hsql, rfl⟩ := Prod.mk.inj hprepare
      exact ⟨hallowed, _, Prod.ext hsql rfl, rfl⟩

/-- The parameters of a statement that was lowered can be given to it again. -/
theorem replay_of_lower (h : (statement.lower env).1 = .ok lowered) :
    (statement.prepare env { State.initial with parameters := lowered.parameters }).1
        = .ok lowered.sql
      ∧ (statement.prepare env
          { State.initial with parameters := lowered.parameters }).2.parameters
        = lowered.parameters := by
  obtain ⟨hallowed, s, hrun, hparameters⟩ := exists_run_of_lower h
  have hknown := (statement.composed_write_finish env).run_known (m := lowered.parameters) hrun
    (hparameters ▸ List.prefix_rfl)
  rw [prepare, if_neg hallowed, hknown]
  exact ⟨rfl, rfl⟩

/-- A statement that is lowered binds its parameters in their order, and shows all their names. -/
theorem bindAll_of_lower (htexts : env.texts = none)
    (h : (statement.lower env).1 = .ok lowered) :
    ParameterMap.empty.bindAll (statement.parameters env.functions) = .ok lowered.parameters
      ∧ ∀ p ∈ statement.parameters env.functions, ∀ x ∈ p.nativeNames,
        Sql.Occurs x lowered.sql := by
  obtain ⟨-, s', hrun, hparameters⟩ := exists_run_of_lower h
  constructor
  · have hbind := (statement.composed_write_finish env).bindAll hrun
    rwa [parameters_events htexts, hparameters] at hbind
  · rw [Lowering.bind_apply] at hrun
    rcases hwrite : statement.write env .initial with ⟨_ | a, s⟩ <;> rw [hwrite] at hrun
    · cases (Prod.mk.inj hrun).1
    change finish env s = _ at hrun
    have hrender := render_root_of_finish (congrArg Prod.fst hrun)
    obtain ⟨f, hf, -, hroot⟩ := Setting.exists_output (S := ⟨env, s.anchors, True⟩)
      (Setting.showing.closed htexts trivial) hwrite rfl
    intro p hp x hx
    obtain ⟨n, hn, hp⟩ := List.mem_flatMap.1 hp
    have hshown := Setting.showing.statementForm htexts hf n hn ⟨p, hp, hx⟩
    exact (Sql.AnchorTable.shown_congr hroot.symm hshown).2 _ hrender

/-- The map of parameters that a statement is lowered with agrees with the statement and with the
SQL. -/
theorem parametersAgree_of_lower {catalog : Catalog} {options : Options} {functions : Registry}
    (h : (statement.lower (Environment.of catalog options functions)).1 = .ok lowered) :
    lowered.ParametersAgree (Environment.of catalog options functions) statement := by
  obtain ⟨hbind, hoccurs⟩ := bindAll_of_lower rfl h
  have hget := ParameterMap.get?_of_bindAll ParameterMap.boundBy_empty (fun _ hp => hp) hbind
  have hstart : ParameterMap.empty.keys.Nodup := List.nodup_nil
  refine ⟨fun hargs p => mem_parameters_iff hargs, hbind,
    ParameterMap.nodup_keys_of_bindAll hstart hbind, ParameterMap.keys_of_bindAll hbind,
    fun before p after hps => ?_, fun p hp => ?_, replay_of_lower h, fun b hb x hx => ?_,
    fun p hp q hq hkey => ?_⟩
  · rw [hps] at hbind
    exact ParameterMap.exists_turn hbind
  · refine ⟨p.nativeNames, hget p hp, p.length_nativeNames, fun s hs columns => ?_⟩
    obtain ⟨m, hm⟩ := ParameterMap.exists_bind_of_isPrefix hs (hget p hp)
    exact Exp.lower_parameter_eq_ok_iff hm
  · obtain ⟨p, hp, rfl⟩ := ParameterMap.boundBy_empty.bindAll (fun _ hp => hp) hbind b hb
    exact hoccurs p hp x hx
  · have hnames := hget p hp
    rw [hkey, hget q hq] at hnames
    rw [← p.length_nativeNames, ← q.length_nativeNames, Option.some.inj hnames]

end Statement

namespace Sample

/-- The names of widgets at a position, if it is that of all widgets with more than some count. -/
def widgetsAtPosition : Statement :=
  let position : Exp := .property ⟨"w", ["Position"], .ofClass 20, .primitive .point2d⟩
  let wanted : Exp := .parameter ⟨some "p", 1, .primitive .point2d⟩
  let counted : SelectCore Exp Source :=
    { otherNames with
      items := [⟨position, none, none⟩]
      condition := some (.boolean (.property ⟨"w", ["Count"], .ofClass 20, .primitive .long⟩)
        (.comparison .gt) (.parameter ⟨none, 2, .primitive .long⟩) false) }
  .select ⟨{ otherNames with
    condition := some (.boolean (.boolean position (.comparison .eq) wanted false) .and
      (.quantified wanted .eq .all ⟨counted, []⟩) false) }, []⟩

/-- A parameter that stands in two places, of which one goes into an anchor, is bound once. -/
theorem parametersAgree_widgetsAtPosition : ∃ lowered,
    (widgetsAtPosition.lower (Environment.of catalog .default .builtin)).1 = .ok lowered
      ∧ lowered.parameters.bindings
        = [⟨.named "p", [":_ecdb_ecsqlparam_p_col1", ":_ecdb_ecsqlparam_p_col2"]⟩,
          ⟨.positional 2, [":_ecdb_ecsqlparam_ix2_col1"]⟩]
      ∧ lowered.ParametersAgree (Environment.of catalog .default .builtin) widgetsAtPosition := by
  have hbindings : (widgetsAtPosition.lower
      (Environment.of catalog .default .builtin)).1.toOption.map (·.parameters.bindings)
        = some [⟨.named "p", [":_ecdb_ecsqlparam_p_col1", ":_ecdb_ecsqlparam_p_col2"]⟩,
          ⟨.positional 2, [":_ecdb_ecsqlparam_ix2_col1"]⟩] := by
    decide +kernel
  obtain ⟨lowered, hlower, hbindings⟩ := Except.exists_eq_ok_of_map hbindings
  exact ⟨lowered, hlower, hbindings, Statement.parametersAgree_of_lower hlower⟩

end Sample

end EntitySql
