import EntitySql.Proofs.Lowering.ChangeText
import EntitySql.Proofs.Sql.Condition
import EntitySql.Proofs.Storage.Rows

/-!
# The rows that a change touches

An update or a deletion touches the rows of one table of which its whole condition holds. This is
the table that stores the class, and these are the rows of the class, and of its subclasses if they
are included, of which the condition of the statement holds by itself. The condition may connect its
operands as it likes: it stands in parentheses, and `AND` takes these as they are
(`holds_conjoined`).

This rests on the texts of the statement being closed. With plain names they are, unless a comment
begins in one of them. But that can happen: two signs before a number are written next to each
other, and begin a comment. The rest of the line is gone then, and with it a parenthesis or the
whole condition on the class.
-/

namespace EntitySql

/-! ## Conditions -/

/-- A condition holds, by what is known of its operands. One that is absent holds. -/
def Holds (truth : String → Option Bool) (condition : Option String) : Prop :=
  ∀ text ∈ condition, (Sql.read? text).bind (·.value truth) = some true

section

variable {truth : String → Option Bool} {predicate filter : Option String}

theorem holds_none : Holds truth none := nofun

theorem holds_some {text : String} :
    Holds truth (some text) ↔ (Sql.read? text).bind (·.value truth) = some true := by
  simp [Holds]

/-- Both conditions have to hold, if they are closed. -/
theorem holds_conjoined (hpredicate : ∀ x ∈ predicate, Sql.IsClosed x)
    (hfilter : ∀ x ∈ filter, Sql.IsClosed x) :
    Holds truth (conjoined predicate filter) ↔ Holds truth predicate ∧ Holds truth filter := by
  cases predicate with
  | none =>
    cases filter with
    | none => simp [conjoined, holds_none]
    | some y =>
      obtain ⟨-, hread⟩ := Sql.read?_parenthesized (hfilter y rfl)
      rw [conjoined, holds_some, hread, holds_some]
      exact ⟨fun h => ⟨holds_none, h⟩, fun h => h.2⟩
  | some x =>
    cases filter with
    | none => exact ⟨fun h => ⟨h, holds_none⟩, fun h => h.1⟩
    | some y =>
      obtain ⟨p, q, hp, hq, -, hread⟩ := Sql.read?_conjunction (hpredicate x rfl) (hfilter y rfl)
      rw [conjoined, holds_some, holds_some, holds_some, hread, hp, hq]
      exact Sql.Condition.both_eq_true

end

/-! ## The table of a class -/

namespace Catalog

variable {catalog : Catalog} {id : ClassId} {c : ClassName} {map m : ClassMap} {kind : StatementKind}

/-- The tables of subclasses are among those of the hierarchy. -/
theorem mem_hierarchyTables {tables : List String} (hcatalog : catalog.Consistent)
    (h : catalog.hierarchyTables id = .ok tables) (hm : m ∈ catalog.maps)
    (hderives : catalog.DerivesFrom m.classId id) : m.table ∈ tables := by
  obtain ⟨ids, hids, htables⟩ := Except.bind_eq_ok.1 h
  obtain rfl := Except.ok.inj htables
  rw [List.mem_eraseDups, List.mem_map]
  refine ⟨m, List.mem_filterMap.2 ⟨m.classId, ?_, hcatalog.classMap?_of_mem hm⟩, rfl⟩
  exact (mem_of_classAndDerived hids).2 hderives

/-- The hierarchy of a class that subclasses may be removed with is stored in one table. -/
theorem table_eq_of_allowsTarget (hcatalog : catalog.Consistent)
    (h : Lowering.AllowsTarget catalog kind c) (hpolymorphic : c.polymorphic = true)
    (hm : m ∈ catalog.maps) (hderives : catalog.DerivesFrom m.classId c.classId)
    (hmap : map ∈ catalog.maps) (hderives' : catalog.DerivesFrom map.classId c.classId) :
    m.table = map.table := by
  obtain ⟨-, tables, htables, hlength⟩ := h hpolymorphic
  have hmem := mem_hierarchyTables hcatalog htables hm hderives
  have hmem' := mem_hierarchyTables hcatalog htables hmap hderives'
  rcases tables with _ | ⟨table, _ | ⟨next, rest⟩⟩
  · cases hmem
  · rw [List.mem_singleton.1 hmem, List.mem_singleton.1 hmem']
  · simp at hlength

/-- All that a target stands for is stored in the table of its class. -/
theorem table_eq_of_covers (hcatalog : catalog.Consistent)
    (hallows : Lowering.AllowsTarget catalog kind c) (hmap : catalog.classMap c.classId = .ok map)
    (hm : m ∈ catalog.maps) (hcovers : catalog.Covers c m.classId) : m.table = map.table := by
  have hfind := classMap_eq_ok.1 hmap
  rw [Covers] at hcovers
  by_cases hpolymorphic : c.polymorphic = true
  · rw [if_pos hpolymorphic] at hcovers
    have hself : catalog.DerivesFrom map.classId c.classId := by
      rw [classId_of_classMap? hfind]
      exact .refl
    exact table_eq_of_allowsTarget hcatalog hallows hpolymorphic hm hcovers
      (mem_maps_of_classMap? hfind) hself
  · rw [if_neg hpolymorphic] at hcovers
    have hfind' := hcatalog.classMap?_of_mem hm
    rw [hcovers, hfind] at hfind'
    rw [Option.some.inj hfind']

end Catalog

/-! ## Rows -/

namespace Change.Parts

variable {catalog : Catalog} {db : Database} {env : Environment} {change : Change} {sql : String}
  {parts : Parts} {row : Row} {truth : Row → String → Option Bool}

/-- The texts of the statement itself: what stands before its condition, and the condition. -/
def texts (parts : Parts) : List String :=
  parts.front :: parts.predicate.toList

/-- The texts of the statement are closed, so that the whole condition is read where it stands, and
that of the statement by itself. -/
def IsClosed (parts : Parts) : Prop :=
  ∀ x ∈ parts.texts, Sql.IsClosed x

/-- The condition on the class is closed, and means what it is made for. -/
def ReadsClass (parts : Parts) (db : Database) (truth : Row → String → Option Bool) : Prop :=
  ∀ column ∈ parts.table.classIdColumn, ∀ filter ∈ parts.filter,
    Sql.IsClosed (filter.sql column) ∧ ∀ row ∈ db.rows, row.table = parts.map.table →
      (Holds (truth row) (some (filter.sql column)) ↔ filter.accepts db (row.cell column) = true)

theorem ReadsClass.isClosed (h : parts.ReadsClass db truth) :
    ∀ x ∈ parts.filterText, Sql.IsClosed x := by
  intro x hx
  simp only [filterText, EntitySql.filterText, bind, pure, Option.mem_def,
    Option.bind_eq_some_iff] at hx
  obtain ⟨filter, hfilter, column, hcolumn, hsql⟩ := hx
  exact Option.some.inj hsql ▸ (h column hcolumn filter hfilter).1

/-- Of the rows of the table, the condition on the class holds of the wanted ones. -/
theorem Make.holds_filterText (h : parts.Make env change sql) (hcatalog : env.catalog.Consistent)
    (hapart : env.catalog.TellsApart) (hdb : env.catalog.Describes db)
    (hclass : parts.ReadsClass db truth) (hrow : row ∈ db.rows)
    (htable : row.table = parts.map.table) :
    Holds (truth row) parts.filterText ↔ env.catalog.Covers change.className row.classId := by
  have hfind := Catalog.classMap_eq_ok.1 h.map
  have hmem := Catalog.mem_maps_of_classMap? hfind
  have hid := Catalog.classId_of_classMap? hfind
  cases hcolumn : parts.table.classIdColumn with
  | none =>
    -- there is only one class in the table
    have hself := hapart.classId_eq hdb hmem h.table hcolumn hrow htable
    have hnone : parts.filterText = none := by
      rw [filterText, EntitySql.filterText, hcolumn]
      cases parts.filter <;> rfl
    rw [hnone, ← hself, hid]
    exact ⟨fun _ => Catalog.covers_self .., fun _ => holds_none⟩
  | some column =>
    have hcell := hdb.cell_eq hrow (htable ▸ h.table) hcolumn
    have hname := Catalog.name_of_table h.table
    obtain ⟨stored, hstored, hstoredId, hstoredTable⟩ := hdb.stored row hrow
    have hhere : row.classId ∈ env.catalog.classesInTable parts.table.name :=
      Catalog.mem_classesInTable.2 ⟨stored, hstored, by rw [hname, hstoredTable, htable], hstoredId⟩
    have hself : change.className.classId ∈ env.catalog.classesInTable parts.table.name :=
      Catalog.mem_classesInTable.2 ⟨parts.map, hmem, hname.symm, hid⟩
    have hne : parts.table.classIdColumn ≠ none := by simp [hcolumn]
    rw [← Catalog.accepts_classFilter hcatalog hdb hne (h.filter hne) (fun _ => hself) hhere]
    cases hfilter : parts.filter with
    | none =>
      rw [filterText, EntitySql.filterText, hfilter]
      simp [Holds]
    | some filter =>
      have htext : parts.filterText = some (filter.sql column) := by
        rw [filterText, EntitySql.filterText, hfilter, hcolumn]
        rfl
      rw [htext, (hclass column hcolumn filter hfilter).2 row hrow htable, hcell]
      simp

/-- The rows of the table of which the whole condition holds are the wanted ones of which the
condition of the statement holds. -/
theorem Make.holds_condition (h : parts.Make env change sql) (hcatalog : env.catalog.Consistent)
    (hapart : env.catalog.TellsApart) (hdb : env.catalog.Describes db)
    (hclosed : parts.IsClosed) (hclass : parts.ReadsClass db truth) (hrow : row ∈ db.rows) :
    row.table = parts.map.table ∧ Holds (truth row) parts.condition ↔
      Holds (truth row) parts.predicate ∧ env.catalog.Covers change.className row.classId := by
  have hpredicate : ∀ x ∈ parts.predicate, Sql.IsClosed x := fun x hx =>
    hclosed x (List.mem_cons_of_mem _ (Option.mem_toList.2 hx))
  rw [condition, holds_conjoined hpredicate hclass.isClosed]
  constructor
  · rintro ⟨htable, hpredicate, hfilter⟩
    exact ⟨hpredicate, (h.holds_filterText hcatalog hapart hdb hclass hrow htable).1 hfilter⟩
  · rintro ⟨hpredicate, hcovers⟩
    obtain ⟨stored, hstored, hid, hstoredTable⟩ := hdb.stored row hrow
    have htable : row.table = parts.map.table := by
      rw [← hstoredTable]
      exact Catalog.table_eq_of_covers hcatalog h.allows h.map hstored (hid ▸ hcovers)
    exact ⟨htable, hpredicate,
      (h.holds_filterText hcatalog hapart hdb hclass hrow htable).2 hcovers⟩

/-- With plain names, quotes, brackets and parentheses close in the texts of the statement. -/
theorem Make.closes (h : parts.Make env change sql) (henv : env.Plain)
    (hchange : change.statement.Plain) :
    ∀ x ∈ parts.texts, Sql.closesFrom .plain 0 x.toList = true := by
  intro x hx
  rcases List.mem_cons.1 hx with rfl | hx
  · have hmem := Catalog.mem_maps_of_classMap? (Catalog.classMap_eq_ok.1 h.map)
    exact h.front.closes (henv.catalog.map hmem (List.mem_cons_self ..)) henv hchange
  · have hrel := h.predicate
    rw [Option.mem_toList.1 hx] at hrel
    cases hcondition : change.condition with
    | none =>
      rw [hcondition] at hrel
      cases hrel
    | some e =>
      rw [hcondition] at hrel
      cases hrel with
      | some hgives => exact closes_of_givesText h.front henv hchange hcondition hgives

end Change.Parts

/-- A change touches exactly the rows that its class name stands for and of which its condition
holds, if the text of the condition is closed. A class is not changed or inserted into together with
its subclasses, and is not deleted with those that have another table. -/
theorem Change.touches_iff_covers {definition : CatalogDefinition} {catalog : Catalog}
    {db : Database} {options : Options} {functions : Registry}
    (hdefinition : Catalog.ofDefinition definition = .ok catalog) (hapart : catalog.TellsApart)
    (hdb : catalog.Describes db) :
    (∀ (change : Change) (p : LoweredStatement),
      (change.statement.lower (.of catalog options functions)).1 = .ok p →
      ∃ parts : Parts, parts.Make (.of catalog options functions) change p.sql
        ∧ (∀ map ∈ catalog.maps, catalog.Covers change.className map.classId →
          map.table = parts.map.table)
        ∧ (∀ truth, parts.IsClosed → parts.ReadsClass db truth → ∀ row ∈ db.rows,
          (row.table = parts.map.table ∧ Holds (truth row) parts.condition ↔
            Holds (truth row) parts.predicate ∧ catalog.Covers change.className row.classId))
        ∧ (catalog.Plain → functions.Plain → change.statement.Plain →
          (∀ x ∈ parts.texts, Sql.isCommentFree x = true) → parts.IsClosed))
    ∧ (∀ (insert : Insert) (p : LoweredStatement), insert.className.polymorphic = true →
      ((Statement.insert insert).lower (.of catalog options functions)).1 ≠ .ok p)
    ∧ (∀ (update : Update) (p : LoweredStatement), update.className.polymorphic = true →
      ((Statement.update update).lower (.of catalog options functions)).1 ≠ .ok p)
    ∧ ∀ (delete : Delete) (p : LoweredStatement), delete.className.polymorphic = true →
      ∀ m ∈ catalog.maps, catalog.DerivesFrom m.classId delete.className.classId →
      ∀ m' ∈ catalog.maps, catalog.DerivesFrom m'.classId delete.className.classId →
      m.table ≠ m'.table →
      ((Statement.delete delete).lower (.of catalog options functions)).1 ≠ .ok p := by
  have hcatalog := Catalog.consistent_of_ofDefinition hdefinition
  refine ⟨?_, ?_, ?_, ?_⟩
  · intro change p h
    obtain ⟨parts, hmake⟩ := exists_parts rfl h
    refine ⟨parts, hmake, ?_, ?_, ?_⟩
    · intro map hmap hcovers
      exact Catalog.table_eq_of_covers hcatalog hmake.allows hmake.map hmap hcovers
    · intro truth hclosed hclass row hrow
      exact hmake.holds_condition hcatalog hapart hdb hclosed hclass hrow
    · intro hnames hfunctions hchange hfree x hx
      have henv : (Environment.of catalog options functions).Plain :=
        ⟨Environment.standard_of .., hnames, hfunctions⟩
      exact Sql.isClosed_of_closesFrom (hmake.closes henv hchange x hx) (hfree x hx)
  · intro insert p hpolymorphic h
    cases (Insert.allowsTarget_of_lower rfl h hpolymorphic).1
  · intro update p hpolymorphic h
    change ((Change.update update).statement.lower _).1 = _ at h
    obtain ⟨parts, hmake⟩ := exists_parts rfl h
    cases (hmake.allows hpolymorphic).1
  · intro delete p hpolymorphic m hm hderives m' hm' hderives' hne h
    change ((Change.delete delete).statement.lower _).1 = _ at h
    obtain ⟨parts, hmake⟩ := exists_parts rfl h
    exact hne (Catalog.table_eq_of_allowsTarget hcatalog hmake.allows hpolymorphic hm hderives hm'
      hderives')

namespace Sample

/-- Deletes the physical elements with this value as the first coordinate of their origin, and those
with this code. -/
def deletionWhere (x : Exp) (code : String) : Change :=
  .delete ⟨⟨11, "ts", "PhysicalElement", none, false⟩,
    some (.boolean
      (.boolean (.property ⟨"e", ["Origin", "X"], .ofClass 11, .primitive .double⟩)
        (.comparison .eq) x false)
      .or
      (.boolean (.property ⟨"e", ["Code"], .ofClass 11, .primitive .string⟩)
        (.comparison .eq) (.literal (.ofValue (.string code))) false)
      false)⟩

/-- The parts of the SQL of such a deletion, by its text. -/
theorem parts_deletionWhere {x : Exp} {code predicate : String} {parts : Change.Parts}
    (h : parts.Make (.of catalog .default .builtin) (deletionWhere x code)
      ("DELETE FROM [ts_Element] WHERE (" ++ predicate ++ ") AND (ECClassId=11)")) :
    parts.map.table = "ts_Element" ∧ parts.table.classIdColumn = some "ECClassId"
      ∧ parts.filter = some (.exactly 11) ∧ parts.front = "DELETE FROM [ts_Element]"
      ∧ parts.predicate = some predicate := by
  obtain ⟨hmap, htable, -, ⟨-, hfront⟩, hpredicate, hfilter, hsql⟩ := h
  have hstored : (catalog.classMap 11).toOption.map (·.table) = some "ts_Element" := by
    decide +kernel
  have hcolumn : catalog.classColumn? "ts_Element" = some "ECClassId" := by decide +kernel
  have hshared : catalog.isSharedTable "ts_Element" = true := by decide +kernel
  change catalog.classMap 11 = _ at hmap
  rw [hmap] at hstored
  have hname : parts.map.table = "ts_Element" := Option.some.inj hstored
  change catalog.table _ = _ at htable
  rw [hname] at htable hfront
  rw [Catalog.classColumn?_of_table htable] at hcolumn
  have hexactly : parts.filter = some (.exactly 11) := by
    have hclass := hfilter (by simp [hcolumn])
    change catalog.classFilter _ 11 false = _ at hclass
    rw [Catalog.classFilter, hcolumn, Catalog.name_of_table htable, hshared] at hclass
    exact (Except.ok.inj hclass).symm
  refine ⟨hname, hcolumn, hexactly, hfront, ?_⟩
  have htext : parts.filterText = some "ECClassId=11" := by
    rw [Change.Parts.filterText, filterText, hexactly, hcolumn]
    rfl
  cases hcondition : parts.predicate with
  | none =>
    rw [hcondition] at hpredicate
    cases hpredicate
  | some other =>
    have hopen : "DELETE FROM [ts_Element] WHERE (" = parts.front ++ (" WHERE " ++ "(") := by
      rw [hfront]
      rfl
    have hclose : ") AND (ECClassId=11)" = ") AND (" ++ ("ECClassId=11" ++ ")") := rfl
    rw [Change.Parts.condition, hcondition, htext, hopen, hclose] at hsql
    simp only [whereText, conjoined, String.append_assoc, String.append_right_inj] at hsql
    rw [(String.append_left_inj _).1 hsql]

/-- The sample reads the class of a row as the table stores it. -/
theorem readsClass_deletionWhere {parts : Change.Parts} {truth : Row → String → Option Bool}
    (hcolumn : parts.table.classIdColumn = some "ECClassId")
    (hfilter : parts.filter = some (.exactly 11))
    (htruth : ∀ row, truth row "ECClassId=11"
      = some (decide (row.cell "ECClassId" = ClassId.cell 11))) :
    parts.ReadsClass database truth := by
  intro column hcolumn' filter hfilter'
  rw [hcolumn] at hcolumn'
  rw [hfilter] at hfilter'
  obtain rfl := Option.some.inj hcolumn'
  obtain rfl := Option.some.inj hfilter'
  refine ⟨Sql.isClosed_of_closesFrom (by decide +kernel) (by decide +kernel), fun row _ _ => ?_⟩
  have hread : Sql.read? (ClassFilter.sql (.exactly 11) "ECClassId")
      = some (.operand "ECClassId=11") := by
    decide +kernel
  rw [holds_some, hread]
  change truth row "ECClassId=11" = some true ↔ _
  rw [htruth, Option.some.injEq]
  rfl

/-- A deletion whose condition has `OR` at its top level touches rows of its class only. -/
theorem touches_deletionWhere : ∃ p,
    ((deletionWhere (.literal (.ofValue (.integer 1))) "a").statement.lower
        (.of catalog .default .builtin)).1 = .ok p
      ∧ p.sql
        = "DELETE FROM [ts_Element] WHERE ([Origin_X] = 1 OR [Code] = 'a') AND (ECClassId=11)"
      ∧ ∀ truth : Row → String → Option Bool,
        (∀ row, truth row "ECClassId=11" = some (decide (row.cell "ECClassId" = ClassId.cell 11))) →
        ∀ row ∈ database.rows,
          (row.table = "ts_Element"
            ∧ Holds (truth row) (some "([Origin_X] = 1 OR [Code] = 'a') AND (ECClassId=11)") ↔
            Holds (truth row) (some "[Origin_X] = 1 OR [Code] = 'a'") ∧ row.classId = 11) := by
  have hlower : ((deletionWhere (.literal (.ofValue (.integer 1))) "a").statement.lower
      (.of catalog .default .builtin)).1.toOption.map (·.sql)
        = some ("DELETE FROM [ts_Element] WHERE (" ++ "[Origin_X] = 1 OR [Code] = 'a'"
          ++ ") AND (ECClassId=11)") := by
    decide +kernel
  obtain ⟨p, hp, hsql⟩ := Except.exists_eq_ok_of_map hlower
  refine ⟨p, hp, hsql, fun truth htruth row hrow => ?_⟩
  obtain ⟨parts, hmake, -, hrows, -⟩ := (Change.touches_iff_covers ofDefinition_catalog
    (by decide +kernel) describes_database).1 _ p hp
  rw [hsql] at hmake
  obtain ⟨hname, hcolumn, hfilter, hfront, hpredicate⟩ := parts_deletionWhere hmake
  have hclosed : parts.IsClosed := by
    intro x hx
    rw [Change.Parts.texts, hfront, hpredicate] at hx
    rcases List.mem_cons.1 hx with rfl | hx
    · exact Sql.isClosed_of_closesFrom (by decide +kernel) (by decide +kernel)
    · obtain rfl := List.mem_singleton.1 hx
      exact Sql.isClosed_of_closesFrom (by decide +kernel) (by decide +kernel)
  have h := hrows truth hclosed (readsClass_deletionWhere hcolumn hfilter htruth) row hrow
  rw [hname, Change.Parts.condition, Change.Parts.filterText, filterText, hpredicate, hfilter,
    hcolumn] at h
  exact h

/-- The same deletion with two signs before the number. They begin a comment that ends in the code,
and the condition is read as one that holds of rows of other classes. -/
theorem holds_of_comment :
    ((deletionWhere (.sign .minus (.sign .minus (.literal (.ofValue (.integer 1))) .unknown) .unknown)
        "\n1) OR (1=1) --").statement.lower (.of catalog .default .builtin)).1.toOption.map (·.sql)
      = some ("DELETE FROM [ts_Element] WHERE "
        ++ "([Origin_X] = --1 OR [Code] = '\n1) OR (1=1) --') AND (ECClassId=11)")
    ∧ ∃ row ∈ database.rows, row.table = "ts_Element" ∧ row.classId ≠ 11
      ∧ ∀ truth, truth "1=1" = some true →
        Holds truth (some "([Origin_X] = --1 OR [Code] = '\n1) OR (1=1) --') AND (ECClassId=11)") := by
  refine ⟨by decide +kernel, elementRow 12, by simp [database], rfl, by decide, ?_⟩
  intro truth htruth
  have hread : Sql.read? "([Origin_X] = --1 OR [Code] = '\n1) OR (1=1) --') AND (ECClassId=11)"
      = some (.or (.operand "[Origin_X] = \n1") (.operand "1=1")) := by
    decide +kernel
  rw [holds_some, hread]
  change Sql.Condition.either (truth _) (truth "1=1") = some true
  rw [htruth]
  rcases truth "[Origin_X] = \n1" with _ | _ | _ <;> rfl

end Sample

end EntitySql
