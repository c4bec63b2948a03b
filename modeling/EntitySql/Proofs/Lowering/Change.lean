import EntitySql.Proofs.Lowering.Exp

/-!
# The specifications of insertions, updates and deletions

A statement that changes instances is lowered in a scope of its own kind. There the target is a
table and not a view, so that the alias of the class is not written (`withScope_target_bind`). In a
condition, the column with the class of a row is written as it is, and not in brackets.
-/

namespace EntitySql

open Sql (Columns Fragment bracketed)

namespace Lowering

variable {α : Type} {c : ClassName} {kind : StatementKind}

/-! ## Targets -/

/-- The table of a class, as the target of a change. -/
def tableName (kind : StatementKind) (c : ClassName) : Lowering Fragment := do
  let map ← usableMap c
  if c.polymorphic then
    if kind = .delete then checkSingleTable c
    else reject (.polymorphicTarget kind c.fullName)
  return bracketed map.table

/-- Looking up a map leaves the state as it is. -/
theorem eq_of_usableMap {env : Environment} {s s' : State} {map : ClassMap}
    (h : usableMap c env s = (.ok map, s')) : s' = s := by
  simp only [usableMap, bind_apply, catalog] at h
  cases hmap : env.catalog.classMap c.classId with
  | ok map =>
    rw [hmap] at h
    exact (Prod.mk.inj h).2.symm
  | error error =>
    rw [hmap] at h
    cases error <;> cases (Prod.mk.inj h).1

/-- In the scope of a change, a class name is the name of a table. -/
theorem className_apply {usageOf : String → PropertyUsage} {s : State} (hs : s.scope.kind = kind)
    (hkind : kind ≠ .select) (env : Environment) :
    className usageOf c env s = tableName kind c env s := by
  rw [className, tableName, bind_apply, bind_apply]
  rcases hend : usableMap c env s with ⟨_ | map, s'⟩
  · rfl
  · -- looking up the class map has left the scope as it was
    obtain rfl := eq_of_usableMap hend
    simp only [bind_apply, environment, scope, hs]
    cases kind with
    | select => exact absurd rfl hkind
    | delete => rfl
    | insert | update => rfl

/-- The table that a class name stands for, as the target of a change of a known kind. -/
def changeTarget (kind : StatementKind) (c : ClassName) : Lowering (Fragment × Table) := do
  let sql ← tableName kind c
  let map ← usableMap c
  let table ← ofCatalog ((← catalog).table map.table)
  return (sql, table)

/-- In the scope of a change, the target is a table. -/
theorem withScope_target_bind (hkind : kind ≠ .select) (next : Fragment × Table → Lowering α) :
    withScope (.change kind) (target c >>= next)
      = withScope (.change kind) (changeTarget kind c >>= next) := by
  funext env s
  have htarget : target c env { s with scopes := .change kind :: s.scopes }
      = changeTarget kind c env { s with scopes := .change kind :: s.scopes } := by
    have hscope : ({ s with scopes := .change kind :: s.scopes } : State).scope.kind = kind := rfl
    rw [target, changeTarget, bind_apply, bind_apply, className_apply hscope hkind]
  rw [withScope, withScope, bind_apply, bind_apply, htarget]

/-! ## Conditions -/

/-- The condition on the class of a row, if there is one. -/
def changeFilter (c : ClassName) (table : Table) : Lowering (Option String) :=
  match table.classIdColumn with
  | none => return none
  | some column => do
    let filter ← ofCatalog ((← catalog).classFilter table c.classId c.polymorphic)
    return filter.map (·.sql column)

/-- The condition of the statement and the one on the class of a row, as far as there are any. -/
def whereClause : Option Fragment → Option String → Fragment
  | some condition, some filter =>
    " WHERE " ++ condition.parenthesized ++ (" AND (" ++ filter ++ ")")
  | some condition, none => " WHERE " ++ condition
  | none, some filter => Fragment.ofText (" WHERE (" ++ filter ++ ")")
  | none, none => .empty

/-- The condition of a change is lowered before that on the classes of rows. -/
theorem changeCondition_eq (c : ClassName) (table : Table) (condition : Option Exp) :
    changeCondition c table condition = (do
      let condition ← Operand.single? (optionOperand condition) "WHERE clause"
      let filter ← changeFilter c table
      return whereClause condition filter) := by
  rw [changeCondition, changeFilter]
  refine bind_congr fun condition => ?_
  cases table.classIdColumn with
  | none => cases condition <;> rfl
  | some column =>
    simp only [bind_assoc, pure_bind]
    refine bind_congr fun _ => bind_congr fun filter => ?_
    cases condition <;> cases filter <;> rfl

end Lowering

/-! ## What changes are lowered to -/

variable (S : Setting) (R : Results)

/-- The table that a change writes to. -/
def ClassName.TargetForm (c : ClassName) (target : Fragment × Table) : Prop :=
  ∃ map, S.env.catalog.classMap c.classId = .ok map
    ∧ S.env.catalog.table map.table = .ok target.2 ∧ target.1 = bracketed map.table

/-- The columns of a property and those of its new value. -/
def Assignment.Form (a : Assignment) (columns : Columns × Columns) : Prop :=
  ∃ ls rs, a.property.Form S ls ∧ R.exp a.value rs
    ∧ align (.property a.property) ls a.value rs = .ok columns

/-- The condition on the class of a row, if there is one. -/
def Table.FilterForm (table : Table) (filter : Option String) : Prop :=
  ∀ x ∈ filter, ∃ column ∈ table.classIdColumn, ∃ f : ClassFilter, x = f.sql column

/-- The condition on the rows to change. -/
def ConditionForm (table : Table) (condition : Option Exp) (f : Fragment) : Prop :=
  ∃ g filter, Option.Rel R.single condition g ∧ table.FilterForm filter
    ∧ f = Lowering.whereClause g filter

/-- New values behind the columns that they are for. -/
def newValues (assignments : List (Columns × Columns)) : Fragment :=
  Fragment.join "," (assignments.flatMap fun (columns, values) =>
    List.zipWith (fun (column value : Fragment) => column ++ "=" ++ value) columns values)

/-- An insertion. -/
def Insert.Form (statement : Insert) (f : Fragment) : Prop :=
  ∃ target assignments, statement.properties.length = statement.values.length
    ∧ statement.className.TargetForm S target
    ∧ List.Forall₂ (Assignment.Form S R)
      (List.zipWith Assignment.mk statement.properties statement.values) assignments
    ∧ f = "INSERT INTO " ++ target.1 ++ "("
      ++ Fragment.join ","
        (assignments.flatMap (·.1) ++ (Lowering.classColumn statement target.2).1)
      ++ ") VALUES ("
      ++ Fragment.join ","
        (assignments.flatMap (·.2) ++ (Lowering.classColumn statement target.2).2)
      ++ ")"

/-- An update. -/
def Update.Form (statement : Update) (f : Fragment) : Prop :=
  ∃ target assignments condition, statement.className.TargetForm S target
    ∧ List.Forall₂ (Assignment.Form S R) statement.assignments assignments
    ∧ ConditionForm R target.2 statement.condition condition
    ∧ f = "UPDATE " ++ target.1 ++ " SET " ++ newValues assignments ++ condition

/-- A deletion. -/
def Delete.Form (statement : Delete) (f : Fragment) : Prop :=
  ∃ target condition, statement.className.TargetForm S target
    ∧ ConditionForm R target.2 statement.condition condition
    ∧ f = "DELETE FROM " ++ target.1 ++ condition

namespace Setting

open Lowering

variable {S : Setting} {R : Results} {c : ClassName}

/-! ## Targets, new values and conditions -/

/-- The target of a change is the table of its class. -/
theorem spec_changeTarget {kind : StatementKind} :
    S.Spec [] (changeTarget kind c) (c.TargetForm S) := by
  have htable : S.Spec [] (tableName kind c) fun f =>
      ∃ map, S.env.catalog.classMap c.classId = .ok map ∧ f = bracketed map.table := by
    refine .usableMap_bind fun map hmap => ?_
    refine .ite (fun _ => .ite (fun _ => ?_) fun _ => .reject) fun _ => .pure ⟨map, hmap, rfl⟩
    exact spec_checkSingleTable.seq fun _ => .pure ⟨map, hmap, rfl⟩
  refine htable.after fun f => .usableMap_bind fun map hmap => .catalog_bind (.ofCatalog_bind ?_ ?_)
  · intro htables
    obtain ⟨table, h⟩ := htables.catalog.table hmap
    exact h ▸ .ok table
  · rintro table htable
    refine .pure fun ⟨map', hmap', hf⟩ => ⟨map, hmap, htable, ?_⟩
    obtain rfl := Except.ok.inj (hmap.symm.trans hmap')
    exact hf

/-- An assignment aligns the columns of its property with those of its value. -/
theorem spec_assignment {a : Assignment} (h : S.Lowers R a.value) :
    S.Spec (S.eventsOf a.value) (assignment a) (a.Form S R) := by
  refine (spec_property a.property).after fun ls => h.lower.before fun rs => ?_
  refine (Spec.ofRule (fun _ => isDefect_of_align) fun _ => id).after fun columns => ?_
  refine .ite (fun _ => .violate rfl) fun _ => .pure fun halign hrs hls => ?_
  exact ⟨ls, rs, hls, hrs, halign⟩

/-- Whether a change filters the classes of rows depends on the table. -/
theorem spec_changeFilter {table : Table} :
    S.Spec [] (changeFilter c table) table.FilterForm := by
  rw [changeFilter.eq_def]
  split
  next => exact .pure nofun
  next column hcolumn =>
    refine .catalog_bind (.ofCatalog_bind (fun _ => S.env.catalog.findsTables_classFilter _ _ _) ?_)
    refine fun filter _ => .pure fun x hx => ?_
    obtain ⟨filter, -, rfl⟩ := Option.mem_map.1 hx
    exact ⟨column, hcolumn, filter, rfl⟩

/-- The condition of a change and the one on the classes of rows, as far as there are any. -/
theorem spec_changeCondition {table : Table} {condition : Option Exp}
    (h : ∀ e ∈ condition.toList, S.Lowers R e) :
    S.Spec (condition.toList.flatMap S.eventsOf) (changeCondition c table condition)
      (ConditionForm R table condition) := by
  rw [changeCondition_eq, optionOperand_eq]
  exact (spec_single? h _).before fun f => spec_changeFilter.make fun filter hfilter hf =>
    ⟨f, filter, hf, hfilter, rfl⟩

/-! ## Statements -/

/-- If there are as many properties as values, every value is in one of the pairs. -/
theorem map_value_zipWith {statement : Insert}
    (hlength : statement.properties.length = statement.values.length) :
    (List.zipWith Assignment.mk statement.properties statement.values).map (·.value)
      = statement.values := by
  rw [List.map_zipWith, ← List.map_uncurry_zip_eq_zipWith]
  exact List.map_snd_zip (le_of_eq hlength.symm)

/-- Assignments are lowered one by one. -/
theorem spec_assignments {assignments : List Assignment}
    (h : ∀ e ∈ assignments.map (·.value), S.Lowers R e) :
    S.Spec ((assignments.map (·.value)).flatMap S.eventsOf) (assignments.mapM assignment)
      (List.Forall₂ (Assignment.Form S R) assignments) := by
  rw [List.flatMap_map]
  exact .mapM fun a ha => spec_assignment (h a.value (List.mem_map_of_mem ha))

/-- An insertion is written with the columns and values of its assignments. -/
theorem produces_insert {statement : Insert} (h : ∀ e ∈ statement.values, S.Lowers R e) :
    S.Produces (statement.values.flatMap S.eventsOf)
      (withScope (.change .insert) (insertBody statement)) (statement.Form S R) := by
  rw [insertBody]
  dsimp only
  split
  · exact .withScope ⟨.reject _, .reject_bind⟩
  next hlength =>
    rw [withScope_target_bind (by decide)]
    refine .withScope (.after spec_changeTarget fun target => ?_)
    have hvalues := map_value_zipWith (not_ne_iff.1 hlength)
    have hassignments := spec_assignments (hvalues.symm ▸ h)
    rw [hvalues] at hassignments
    exact .make hassignments fun assignments hassignments htarget =>
      ⟨target, assignments, not_ne_iff.1 hlength, htarget, hassignments, rfl⟩

/-- An update is written with its assignments and its condition. -/
theorem produces_update {statement : Update}
    (hvalues : ∀ e ∈ statement.assignments.map (·.value), S.Lowers R e)
    (hcondition : ∀ e ∈ statement.condition.toList, S.Lowers R e) :
    S.Produces ((statement.assignments.map (·.value)).flatMap S.eventsOf
        ++ statement.condition.toList.flatMap S.eventsOf)
      (withScope (.change .update) (updateBody statement)) (statement.Form S R) := by
  rw [updateBody, withScope_target_bind (by decide)]
  refine .withScope (.after spec_changeTarget fun target => ?_)
  refine .bind (spec_assignments hvalues) fun assignments => ?_
  exact .make (spec_changeCondition hcondition) fun f hf hassignments htarget =>
    ⟨target, assignments, f, htarget, hassignments, hf, rfl⟩

/-- A deletion is written with its condition. -/
theorem produces_delete {statement : Delete}
    (hcondition : ∀ e ∈ statement.condition.toList, S.Lowers R e) :
    S.Produces (statement.condition.toList.flatMap S.eventsOf)
      (withScope (.change .delete) (deleteBody statement)) (statement.Form S R) := by
  rw [deleteBody, withScope_target_bind (by decide)]
  refine .withScope (.after spec_changeTarget fun target => ?_)
  exact .make (spec_changeCondition hcondition) fun f hf htarget => ⟨target, f, htarget, hf, rfl⟩

end Setting

end EntitySql
