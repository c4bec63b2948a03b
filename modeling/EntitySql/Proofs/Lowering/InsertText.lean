import EntitySql.Proofs.Lowering.AssignmentText

/-!
# The SQL of insertions

The parts of the SQL that an insertion is lowered to: the table of the class, the columns and values
of the properties, and the column for the class if the statement does not set it.
`Insert.exists_parts` takes a run of lowering apart and finds them.
-/

namespace EntitySql

open Lowering
open Sql (AnchorTable Fragment bracketed)

namespace Insert

variable {statement : Insert} {env : Environment} {p : LoweredStatement} {table : Table}

/-- The properties with their values. -/
def assignments (statement : Insert) : List Assignment :=
  List.zipWith Assignment.mk statement.properties statement.values

/-- The column of the table that gets the class of a new instance without being set: there is such a
column, and none of the properties is the class. -/
def classColumn? (statement : Insert) (table : Table) : Option String :=
  if setsClass statement.properties then none else table.classIdColumn

/-- What is inserted into that column. -/
def classGroup (statement : Insert) (table : Table) : TargetGroup :=
  ⟨(statement.classColumn? table).toList.map bracketed,
    (statement.classColumn? table).toList.map fun _ => statement.className.classId.text⟩

/-- The parts of the SQL of an insertion. -/
structure Parts where
  map : ClassMap
  table : Table
  /-- The columns of the properties with their values. -/
  groups : List TargetGroup
  /-- The state after the values. -/
  state : State

namespace Parts

/-- The texts of the columns. -/
def columns (parts : Parts) (statement : Insert) : List String :=
  parts.groups.flatMap (·.columns) ++ (statement.classGroup parts.table).columns

/-- The texts of the values. -/
def values (parts : Parts) (statement : Insert) : List String :=
  parts.groups.flatMap (·.values) ++ (statement.classGroup parts.table).values

/-- The SQL of an insertion is made of these parts, and they are those of its class and of what it
holds. -/
structure Make (parts : Parts) (env : Environment) (statement : Insert) (sql : String) : Prop where
  count : statement.properties.length = statement.values.length
  map : env.catalog.classMap statement.className.classId = .ok parts.map
  table : env.catalog.table parts.map.table = .ok parts.table
  groups : AssignmentsGive env statement.assignments (.changing .insert) parts.groups parts.state
  sql : sql = "INSERT INTO " ++ bracketed parts.map.table
    ++ "(" ++ ",".intercalate (parts.columns statement)
    ++ ") VALUES (" ++ ",".intercalate (parts.values statement) ++ ")"

end Parts

/-- The class of a new row is written like an assignment. -/
theorem rendersTo_classColumn (t : AnchorTable) (statement : Insert) (table : Table) :
    RendersTo t (classColumn statement table) (statement.classGroup table) := by
  have hcolumn : classColumn statement table
      = ((statement.classGroup table).columns.map Fragment.ofText,
        (statement.classGroup table).values.map Fragment.ofText) := by
    rw [classColumn, classGroup, classColumn?]
    cases table.classIdColumn with
    | none => cases setsClass statement.properties <;> rfl
    | some column => cases setsClass statement.properties <;> rfl
  rw [hcolumn]
  exact ⟨forall₂_render_ofText t _, forall₂_render_ofText t _⟩

/-- An insertion that could be lowered is made of its parts. -/
theorem exists_parts (htexts : env.texts = none)
    (h : ((Statement.insert statement).lower env).1 = .ok p) :
    ∃ parts : Parts, parts.Make env statement p.sql := by
  have hcount := length_of_lower htexts h
  have hkind : StatementKind.insert ≠ .select := by decide
  obtain ⟨map, table, s, hmap, htable, -, hnext, hrender⟩ := Statement.exists_run htexts hkind
    (by rw [Statement.write, insertBody, if_neg (not_not_intro hcount)]) h
  obtain ⟨pairs, s₁, hpairs, happend⟩ := bind_eq_ok.1 hnext
  obtain ⟨hkeeps, groups, hgroups, hall⟩ := exists_groups (s := .changing .insert) rfl hkind hpairs
  have hclass := rendersTo_classColumn s₁.anchors statement table
  have hsql : s₁.anchors.render ("INSERT INTO " ++ Fragment.ofText (bracketed map.table)
      ++ "(" ++ Fragment.join "," (pairs.flatMap (·.1) ++ (classColumn statement table).1)
      ++ ") VALUES (" ++ Fragment.join "," (pairs.flatMap (·.2) ++ (classColumn statement table).2)
      ++ ")") = .ok p.sql :=
    hrender _ s₁ happend hkeeps.buffer
  let parts : Parts := ⟨map, table, groups, s₁⟩
  have hcolumns : s₁.anchors.render
      (Fragment.join "," (pairs.flatMap (·.1) ++ (classColumn statement table).1))
        = .ok (",".intercalate (parts.columns statement)) :=
    AnchorTable.render_join_eq_ok.2
      ⟨_, List.rel_append (List.rel_flatMap hall fun _ _ h => h.columns) hclass.columns, rfl⟩
  have hvalues : s₁.anchors.render
      (Fragment.join "," (pairs.flatMap (·.2) ++ (classColumn statement table).2))
        = .ok (",".intercalate (parts.values statement)) :=
    AnchorTable.render_join_eq_ok.2
      ⟨_, List.rel_append (List.rel_flatMap hall fun _ _ h => h.values) hclass.values, rfl⟩
  -- the texts of both lists are known, so the text of the whole statement is, too
  have htext (x : String) := AnchorTable.render_ofText (t := s₁.anchors) x
  refine ⟨parts, hcount, hmap, htable, hgroups, Except.ok.inj (hsql.symm.trans ?_)⟩
  have hopen := AnchorTable.render_append (AnchorTable.render_append (htext "INSERT INTO ")
    (htext (bracketed map.table))) (htext "(")
  have hlists := AnchorTable.render_append (AnchorTable.render_append
    (AnchorTable.render_append hopen hcolumns) (htext ") VALUES (")) hvalues
  exact AnchorTable.render_append hlists (htext ")")

end Insert

end EntitySql
