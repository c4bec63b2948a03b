import EntitySql.Parameter
import EntitySql.Proofs.Except

/-!
# Maps of parameters

A map grows at its end, by one binding for each parameter that is new to it. `bindAll` binds
parameters one after the other. Whatever their order, the map at the end has one binding for each
key, and each of the parameters has there the names that it would get if it were the only one: a
parameter that asks for another number of names than an earlier one with its key is not bound.
-/

namespace EntitySql

/-- The database names that a parameter gets when it first occurs. -/
def Parameter.nativeNames (p : Parameter) : List String :=
  (List.range' 1 p.type.columnCount).map p.key.nativeName

/-- A parameter has a name for each column of its type. -/
theorem Parameter.length_nativeNames (p : Parameter) :
    p.nativeNames.length = p.type.columnCount := by
  simp [nativeNames]

namespace ParameterMap

variable {m m' t : ParameterMap} {key : ParameterKey} {p : Parameter} {names : List String}
  {binds : Parameter → Prop} {ps qs : List Parameter}

/-- The keys of the bindings. -/
def keys (m : ParameterMap) : List ParameterKey :=
  m.bindings.map (·.key)

/-- The map with one more binding. -/
def push (t : ParameterMap) (p : Parameter) : ParameterMap :=
  ⟨t.bindings ++ [⟨p.key, p.nativeNames⟩]⟩

/-- Each binding is that of a parameter that may be bound. -/
def BoundBy (binds : Parameter → Prop) (m : ParameterMap) : Prop :=
  ∀ b ∈ m.bindings, ∃ p, binds p ∧ b = ⟨p.key, p.nativeNames⟩

/-! ## Looking up -/

/-- Names in a map come from a parameter with this key. -/
theorem exists_of_get? (h : m.BoundBy binds) (hnames : m.get? key = some names) :
    ∃ p, binds p ∧ p.key = key ∧ p.nativeNames = names := by
  obtain ⟨b, hb, rfl⟩ := Option.map_eq_some_iff.1 hnames
  obtain ⟨p, hp, rfl⟩ := h b (List.mem_of_find?_eq_some hb)
  exact ⟨p, hp, by simpa using List.find?_some hb, rfl⟩

/-- A key without names is not in the map. -/
theorem get?_eq_none : m.get? key = none ↔ key ∉ m.keys := by
  simp [get?, keys]

/-- A binding of the right width has the names that the parameter would get anew. -/
theorem eq_nativeNames (h : m.BoundBy binds) (hnames : m.get? p.key = some names)
    (hwidth : names.length = p.type.columnCount) : names = p.nativeNames := by
  obtain ⟨q, -, hkey, rfl⟩ := exists_of_get? h hnames
  rw [q.length_nativeNames] at hwidth
  rw [Parameter.nativeNames, Parameter.nativeNames, hkey, hwidth]

/-- A new binding only counts for a key that has none. -/
theorem get?_push : (t.push p).get? key
    = (t.get? key).or (if p.key = key then some p.nativeNames else none) := by
  rw [get?, push, List.find?_append, Option.map_or, ← get?]
  by_cases hkey : p.key = key <;> simp [hkey]

/-! ## Binding one parameter -/

/-- A parameter that is bound before has to have the same width. -/
theorem bind_of_some (h : t.get? p.key = some names) :
    t.bind p = if names.length = p.type.columnCount then .ok (names, t)
      else .error ⟨p.key, names.length, p.type.columnCount⟩ := by
  simp only [bind, h]

/-- A parameter that is not bound gets its own names. -/
theorem bind_of_none (h : t.get? p.key = none) : t.bind p = .ok (p.nativeNames, t.push p) := by
  simp only [bind, h]
  rfl

/-- The parameter was bound before, with the right width, or it is bound now. -/
theorem bind_eq_ok {r : List String × ParameterMap} (h : t.bind p = .ok r) :
    (t.get? p.key = some r.1 ∧ r.1.length = p.type.columnCount ∧ r.2 = t)
      ∨ (t.get? p.key = none ∧ r = (p.nativeNames, t.push p)) := by
  cases hown : t.get? p.key with
  | none =>
    rw [bind_of_none hown] at h
    exact .inr ⟨rfl, (Except.ok.inj h).symm⟩
  | some names =>
    rw [bind_of_some hown] at h
    split at h
    next hwidth =>
      obtain rfl := Except.ok.inj h
      exact .inl ⟨rfl, hwidth, rfl⟩
    next => cases h

/-- Binding one more parameter that may be bound keeps to those that may. -/
theorem BoundBy.bind (h : t.BoundBy binds) (hp : binds p) {r : List String × ParameterMap}
    (hr : t.bind p = .ok r) : r.2.BoundBy binds := by
  rcases bind_eq_ok hr with ⟨-, -, hsame⟩ | ⟨-, rfl⟩
  · rwa [hsame]
  · intro b hb
    rcases List.mem_append.1 hb with hb | hb
    · exact h b hb
    · exact ⟨p, hp, List.mem_singleton.1 hb⟩

/-- A parameter gets the names that it would get as the only one. -/
theorem names_of_bind (h : t.BoundBy binds) {r : List String × ParameterMap}
    (hr : t.bind p = .ok r) : r.1 = p.nativeNames := by
  rcases bind_eq_ok hr with ⟨hget, hwidth, -⟩ | ⟨-, rfl⟩
  · exact eq_nativeNames h hget hwidth
  · rfl

/-- What a parameter is bound to is found in the map then. -/
theorem get?_of_bind {r : List String × ParameterMap} (hr : t.bind p = .ok r) :
    r.2.get? p.key = some r.1 := by
  rcases bind_eq_ok hr with ⟨hget, -, hsame⟩ | ⟨hnone, rfl⟩
  · rwa [hsame]
  · rw [get?_push, hnone, Option.none_or, if_pos rfl]

/-- What is in a map stays there. -/
theorem prefix_of_bind {r : List String × ParameterMap} (hr : t.bind p = .ok r) :
    t.bindings <+: r.2.bindings := by
  rcases bind_eq_ok hr with ⟨-, -, hsame⟩ | ⟨-, rfl⟩
  · exact hsame ▸ List.prefix_rfl
  · exact List.prefix_append ..

/-- No key is bound twice. -/
theorem nodup_keys_of_bind (h : t.keys.Nodup) {r : List String × ParameterMap}
    (hr : t.bind p = .ok r) : r.2.keys.Nodup := by
  rcases bind_eq_ok hr with ⟨-, -, hsame⟩ | ⟨hnone, rfl⟩
  · rwa [hsame]
  · rw [keys, push, List.map_append, List.nodup_append]
    refine ⟨h, by simp, fun key hkey other hother heq => get?_eq_none.1 hnone ?_⟩
    have hother : other = p.key := List.mem_singleton.1 hother
    rwa [← hother, ← heq]

/-- Bindings that are added change no earlier ones. -/
theorem get?_of_isPrefix (h : t.bindings <+: m.bindings) (hnames : t.get? key = some names) :
    m.get? key = some names := by
  obtain ⟨b, hb, rfl⟩ := Option.map_eq_some_iff.1 hnames
  rw [get?, List.IsPrefix.find?_eq_some h hb]
  rfl

/-! ## Binding parameters one after the other -/

/-- Binds parameters one after the other. -/
def bindAll (m : ParameterMap) (ps : List Parameter) : Except ParameterConflict ParameterMap :=
  ps.foldlM (fun m p => (·.2) <$> m.bind p) m

/-- Parameters are bound one after the other. -/
theorem bindAll_append : m.bindAll (ps ++ qs) = m.bindAll ps >>= (·.bindAll qs) :=
  List.foldlM_append

theorem bindAll_singleton : m.bindAll [p] = (·.2) <$> m.bind p := by
  simp [bindAll]

/-- Parameters are bound if the first one is, and the others are in the map that it leaves. -/
theorem bindAll_cons_eq_ok : m.bindAll (p :: ps) = .ok m'
    ↔ ∃ r, m.bind p = .ok r ∧ r.2.bindAll ps = .ok m' := by
  rw [bindAll, List.foldlM_cons]
  cases m.bind p with
  | error conflict => simp [Functor.map, Except.map, Bind.bind, Except.bind]
  | ok r => simp [Functor.map, Except.map, Bind.bind, Except.bind, bindAll]

/-- What binding one parameter preserves holds after all of them. -/
theorem bindAll_induction {P : ParameterMap → Prop}
    (hstep : ∀ p ∈ ps, ∀ t r, P t → t.bind p = .ok r → P r.2) (hm : P m)
    (h : m.bindAll ps = .ok m') : P m' := by
  induction ps generalizing m with
  | nil =>
    obtain rfl := Except.ok.inj h
    exact hm
  | cons p ps ih =>
    obtain ⟨r, hr, hrest⟩ := bindAll_cons_eq_ok.1 h
    obtain ⟨hfirst, hsteps⟩ := List.forall_mem_cons.1 hstep
    exact ih hsteps (hfirst m r hm hr) hrest

/-- Binding parameters only adds bindings. -/
theorem prefix_of_bindAll (h : m.bindAll ps = .ok m') : m.bindings <+: m'.bindings :=
  bindAll_induction (P := fun t => m.bindings <+: t.bindings)
    (fun _ _ _ _ ht hr => ht.trans (prefix_of_bind hr)) List.prefix_rfl h

/-- No key is bound twice. -/
theorem nodup_keys_of_bindAll (hm : m.keys.Nodup) (h : m.bindAll ps = .ok m') : m'.keys.Nodup :=
  bindAll_induction (P := fun t => t.keys.Nodup) (fun _ _ _ _ ht hr => nodup_keys_of_bind ht hr)
    hm h

/-- Binding parameters that may be bound keeps to those that may. -/
theorem BoundBy.bindAll (hm : m.BoundBy binds) (hps : ∀ p ∈ ps, binds p)
    (h : m.bindAll ps = .ok m') : m'.BoundBy binds :=
  bindAll_induction (P := BoundBy binds) (fun p hp _ _ ht hr => ht.bind (hps p hp) hr) hm h

/-- Each parameter has, at the end, the names that it would get as the only one. -/
theorem get?_of_bindAll (hm : m.BoundBy binds) (hps : ∀ p ∈ ps, binds p)
    (h : m.bindAll ps = .ok m') : ∀ p ∈ ps, m'.get? p.key = some p.nativeNames := by
  induction ps generalizing m with
  | nil => exact List.forall_mem_nil _
  | cons p ps ih =>
    obtain ⟨r, hr, hrest⟩ := bindAll_cons_eq_ok.1 h
    obtain ⟨hp, hps⟩ := List.forall_mem_cons.1 hps
    refine List.forall_mem_cons.2 ⟨?_, ih (hm.bind hp hr) hps hrest⟩
    rw [get?_of_isPrefix (prefix_of_bindAll hrest) (get?_of_bind hr), names_of_bind hm hr]

theorem boundBy_empty : empty.BoundBy binds :=
  List.forall_mem_nil _

end ParameterMap

end EntitySql
