import EntitySql.Proofs.Parameters.Map
import EntitySql.Proofs.Text.Digits
import Mathlib.Data.List.Nodup

/-!
# The database names of parameters

The name of a database parameter is made of a stem and the number of a column. Both can be read off
the name: the number is all that stands behind the last letter. So two names are the same only if
their stems are. The names of one parameter differ in their numbers, and those of two parameters
differ unless the parameters share a stem.

They do so if a parameter has the name that stands for the position of another: the stem of the
position `1` is `ix1`, and a parameter can be called `ix1`. Nothing keeps the two apart then.
-/

namespace EntitySql

namespace ParameterKey

variable {key key' : ParameterKey} {i j : Nat}

/-- One is a name that reads as the position that the other is. -/
def Confusable (key key' : ParameterKey) : Prop :=
  ∃ index, (key = .named (stem (.positional index)) ∧ key' = .positional index)
    ∨ (key = .positional index ∧ key' = .named (stem (.positional index)))

/-- The characters of a database name. -/
theorem toList_nativeName (key : ParameterKey) (column : Nat) :
    (key.nativeName column).toList
      = (":_ecdb_ecsqlparam_".toList ++ key.stem.toList ++ "_co".toList)
        ++ 'l' :: (toString column).toList := by
  have hcol : "_col".toList = "_co".toList ++ ['l'] := by decide
  unfold nativeName
  rw [String.toList_append, String.toList_append, String.toList_append, hcol,
    ← List.append_assoc (_ ++ key.stem.toList), List.append_assoc _ ['l'], List.singleton_append]

/-- A database name tells its stem and its number. -/
theorem nativeName_inj : key.nativeName i = key'.nativeName j ↔ key.stem = key'.stem ∧ i = j := by
  constructor
  · intro h
    rw [← String.toList_inj, toList_nativeName, toList_nativeName] at h
    have hl : 'l'.isDigit = false := by decide
    obtain ⟨hstem, hnumber⟩ :=
      append_digits_inj hl isDigit_of_mem_toString isDigit_of_mem_toString h
    have hstem := List.append_cancel_left (List.append_cancel_right hstem)
    exact ⟨String.toList_inj.1 hstem, eq_of_toString_toList hnumber⟩
  · rintro ⟨hstem, rfl⟩
    unfold nativeName
    rw [hstem]

/-- Positions are told apart by their digits. -/
theorem stem_positional_inj {index index' : UInt32}
    (h : stem (.positional index) = stem (.positional index')) : index = index' := by
  rw [stem, stem, ← String.toList_inj, String.toList_append, String.toList_append] at h
  exact UInt32.toNat_inj.1 (eq_of_toString_toList (List.append_cancel_left h))

/-- Different parameters share a stem only if one is named as the position of the other. -/
theorem stem_eq_iff : key.stem = key'.stem ↔ key = key' ∨ key.Confusable key' := by
  constructor
  · intro h
    cases key with
    | named name =>
      cases key' with
      | named name' => exact .inl (congrArg named h)
      | positional index => exact .inr ⟨index, .inl ⟨congrArg named h, rfl⟩⟩
    | positional index =>
      cases key' with
      | named name => exact .inr ⟨index, .inr ⟨rfl, congrArg named h.symm⟩⟩
      | positional index' => exact .inl (congrArg positional (stem_positional_inj h))
  · rintro (rfl | ⟨index, ⟨rfl, rfl⟩ | ⟨rfl, rfl⟩⟩) <;> rfl

end ParameterKey

namespace Parameter

variable {p q : Parameter}

/-- The columns of a parameter have different names. -/
theorem nodup_nativeNames (p : Parameter) : p.nativeNames.Nodup := by
  refine List.Nodup.map (fun i j h => ?_) List.nodup_range'
  exact (ParameterKey.nativeName_inj.1 h).2

/-- Parameters with different keys have a database name in common if they share a stem and both have
names at all. -/
theorem disjoint_nativeNames_iff (hkey : p.key ≠ q.key) :
    p.nativeNames.Disjoint q.nativeNames
      ↔ (p.key.Confusable q.key → p.nativeNames = [] ∨ q.nativeNames = []) := by
  constructor
  · intro hdisjoint hconfusable
    have hstem : p.key.stem = q.key.stem := ParameterKey.stem_eq_iff.2 (.inr hconfusable)
    by_contra hnonempty
    obtain ⟨hp, hq⟩ := not_or.1 hnonempty
    -- the first names differ in nothing but the stem
    have hfirst : ∀ r : Parameter, r.nativeNames ≠ [] → r.key.nativeName 1 ∈ r.nativeNames := by
      intro r hr
      rw [nativeNames, ne_eq, List.map_eq_nil_iff, List.range'_eq_nil_iff] at hr
      exact List.mem_map_of_mem (List.mem_range'_1.2 ⟨Nat.le_refl 1, by omega⟩)
    refine hdisjoint (hfirst p hp) ?_
    rw [ParameterKey.nativeName_inj.2 ⟨hstem, rfl⟩]
    exact hfirst q hq
  · intro h x hp hq
    obtain ⟨i, -, rfl⟩ := List.mem_map.1 hp
    obtain ⟨j, -, hname⟩ := List.mem_map.1 hq
    have hstem := (ParameterKey.nativeName_inj.1 hname).1
    rcases ParameterKey.stem_eq_iff.1 hstem.symm with heq | hconfusable
    · exact hkey heq
    · rcases h hconfusable with hnil | hnil
      · rw [hnil] at hp
        cases hp
      · rw [hnil] at hq
        cases hq

end Parameter

/-- Database names are not shared, neither within a binding nor between two, except for a parameter
that is named as the position of another: if both have names, they have one in common. -/
theorem ParameterMap.nativeNames_apart {parameters : List Parameter} {map : ParameterMap}
    (h : empty.bindAll parameters = .ok map) :
    (∀ b ∈ map.bindings, b.nativeNames.Nodup)
      ∧ ∀ b ∈ map.bindings, ∀ b' ∈ map.bindings, b.key ≠ b'.key →
        (b.nativeNames.Disjoint b'.nativeNames
          ↔ (b.key.Confusable b'.key → b.nativeNames = [] ∨ b'.nativeNames = [])) := by
  have hbound : map.BoundBy fun _ => True := boundBy_empty.bindAll (fun _ _ => trivial) h
  constructor
  · intro b hb
    obtain ⟨p, -, rfl⟩ := hbound b hb
    exact p.nodup_nativeNames
  · intro b hb b' hb' hkey
    obtain ⟨p, -, rfl⟩ := hbound b hb
    obtain ⟨q, -, rfl⟩ := hbound b' hb'
    exact Parameter.disjoint_nativeNames_iff hkey

namespace Sample

/-- A position, and names that look much like what is made of it. -/
def similarParameters : List Parameter :=
  [⟨none, 1, .primitive .point2d⟩, ⟨some "ix", 2, .unknown⟩, ⟨some "ix1_col1", 3, .unknown⟩]

/-- Names that only look alike are kept apart. -/
theorem nativeNames_similarParameters :
    ParameterMap.empty.bindAll similarParameters
        = .ok ⟨[⟨.positional 1, [":_ecdb_ecsqlparam_ix1_col1", ":_ecdb_ecsqlparam_ix1_col2"]⟩,
          ⟨.named "ix", [":_ecdb_ecsqlparam_ix_col1"]⟩,
          ⟨.named "ix1_col1", [":_ecdb_ecsqlparam_ix1_col1_col1"]⟩]⟩
      ∧ [":_ecdb_ecsqlparam_ix1_col1", ":_ecdb_ecsqlparam_ix1_col2"].Nodup
      ∧ [":_ecdb_ecsqlparam_ix1_col1", ":_ecdb_ecsqlparam_ix1_col2"].Disjoint
        [":_ecdb_ecsqlparam_ix1_col1_col1"] := by
  have hbind : ParameterMap.empty.bindAll similarParameters
      = .ok ⟨[⟨.positional 1, [":_ecdb_ecsqlparam_ix1_col1", ":_ecdb_ecsqlparam_ix1_col2"]⟩,
        ⟨.named "ix", [":_ecdb_ecsqlparam_ix_col1"]⟩,
        ⟨.named "ix1_col1", [":_ecdb_ecsqlparam_ix1_col1_col1"]⟩]⟩ := by
    decide +kernel
  obtain ⟨hnodup, hdisjoint⟩ := ParameterMap.nativeNames_apart hbind
  refine ⟨hbind, hnodup _ (List.mem_cons_self ..), ?_⟩
  refine (hdisjoint ⟨.positional 1, _⟩ (by simp) ⟨.named "ix1_col1", _⟩ (by simp) (by simp)).2 ?_
  rintro ⟨index, ⟨hkey, -⟩ | ⟨hkey, hname⟩⟩
  · cases hkey
  · obtain rfl := ParameterKey.positional.inj hkey
    exact absurd hname (by decide +kernel)

/-- A parameter with the name `ix1` and the one at the first position are one in the database. -/
theorem bindAll_sharedName :
    ParameterMap.empty.bindAll [⟨none, 1, .unknown⟩, ⟨some "ix1", 2, .unknown⟩]
      = .ok ⟨[⟨.positional 1, [":_ecdb_ecsqlparam_ix1_col1"]⟩,
        ⟨.named "ix1", [":_ecdb_ecsqlparam_ix1_col1"]⟩]⟩ := by
  decide +kernel

end Sample

end EntitySql
