import EntitySql.Proofs.Catalog.Subclasses
import EntitySql.Proofs.Comments.Spelling
import EntitySql.Proofs.Sql.Connected
import EntitySql.Proofs.Text.Digits
import EntitySql.Storage.ClassFilter

/-!
# Reading conditions on the class of a row

How a database reads the condition behind the column with the class of a row: `IN` and, in
parentheses, either class numbers or a subquery. The subquery selects the classes from the rows of
the table of classes and base classes for which a condition holds, and this condition connects lists
of class numbers again. `ClassSelection.read?` reads the text, and `ClassSelection.accepts` says
which classes the condition accepts. Both look at the text only, whatever it was made from.

`TypeFilter.read?_sql` finds what the text of a filter is read as.
-/

namespace EntitySql

open Sql (Condition Item Reads)

/-! ## Reading -/

/-- The operands of a condition, from left to right. -/
def Sql.Condition.operands : Condition → List String
  | .operand text => [text]
  | .and lhs rhs | .or lhs rhs => lhs.operands ++ rhs.operands

/-- The numbers in a list with commas between them. -/
def numbersIn (chars : List Char) : List (List Char) :=
  chars.splitOn ','

/-- What stands between an opening and a closing text. -/
def between? (opening closing : String) (chars : List Char) : Option (List Char) :=
  (chars.dropPrefix? opening.toList).bind (·.dropSuffix? closing.toList)

/-- A condition on a value, as it is read. -/
inductive ClassSelection where
  /-- The value is one of these numbers. -/
  | listed (numbers : List (List Char))
  /-- The value is a class in a row of the table of classes and base classes that meets a
  condition. -/
  | selected (condition : Condition)
deriving DecidableEq

namespace ClassSelection

/-- The beginning of a subquery on the table of classes and base classes. -/
def opening : String :=
  "SELECT ClassId FROM " ++ hierarchyTable ++ " WHERE "

/-- The reading of a text. -/
def read? (text : String) : Option ClassSelection := do
  let inner ← between? "IN (" ")" text.toList
  match inner.dropPrefix? opening.toList with
  | none => return .listed (numbersIn inner)
  | some condition => return .selected (← Sql.read? (String.ofList condition))

/-- The numbers that a column is compared with, if the operand of a condition is such a
comparison. -/
def numbers? (column operand : String) : Option (List (List Char)) :=
  (between? (column ++ " IN (") ")" operand.toList).map numbersIn

/-- Whether the operand of a condition holds of a row with a class and one of its base classes, if
that is known. -/
def truth (row : ClassId × ClassId) (operand : String) : Option Bool :=
  match numbers? "BaseClassId" operand, numbers? "ClassId" operand with
  | some numbers, _ => some (row.2.text.toList ∈ numbers)
  | none, some numbers => some (row.1.text.toList ∈ numbers)
  | none, none => none

/-- Whether a class is accepted, where the table of classes and base classes has these rows. -/
def accepts (rows : List (ClassId × ClassId)) (id : ClassId) : ClassSelection → Bool
  | .listed numbers => id.text.toList ∈ numbers
  | .selected condition =>
    rows.any fun row => row.1 = id && condition.value (truth row) = some true

/-- The numbers of the classes that are accepted for themselves, as they are listed. -/
def classNumbers : ClassSelection → List (List Char)
  | .listed numbers => numbers
  | .selected condition =>
    condition.operands.flatMap fun operand => (numbers? "ClassId" operand).getD []

end ClassSelection

/-! ## Lists of numbers -/

/-- Identifiers of classes are told apart by their text. -/
theorem ClassId.text_inj {id id' : ClassId} : id.text.toList = id'.text.toList ↔ id = id' := by
  constructor
  · intro h
    obtain ⟨value⟩ := id
    obtain ⟨value'⟩ := id'
    exact congrArg ClassId.mk (UInt64.toNat_inj.1 (eq_of_toString_toList h))
  · rintro rfl
    rfl

/-- What stands between two texts is found there. -/
theorem between?_append (opening closing : String) (chars : List Char) :
    between? opening closing (opening.toList ++ chars ++ closing.toList) = some chars := by
  have hopening : (opening.toList ++ chars ++ closing.toList).dropPrefix? opening.toList
      = some (chars ++ closing.toList) :=
    List.dropPrefix?_eq_some_iff.2 ⟨_, List.append_assoc .., BEq.rfl⟩
  have hclosing : (chars ++ closing.toList).dropSuffix? closing.toList = some chars :=
    List.dropSuffix?_eq_some_iff.2 ⟨_, rfl, BEq.rfl⟩
  rw [between?, hopening]
  exact hclosing

namespace TypeFilter

open ClassSelection

variable {ids : List ClassId} {c : Char}

theorem toList_idList (ids : List ClassId) :
    (idList ids).toList = [','].intercalate (ids.map (·.text.toList)) := by
  rw [idList, String.toList_intercalate, List.map_map]
  rfl

/-- A list of identifiers has only digits and commas. -/
theorem isDigit_or_eq_of_mem_idList (h : c ∈ (idList ids).toList) :
    c.isDigit = true ∨ c = ',' := by
  rw [toList_idList] at h
  induction ids with
  | nil => cases h
  | cons id ids ih =>
    cases ids with
    | nil =>
      rw [List.map_singleton, List.intercalate_singleton] at h
      exact .inl (isDigit_of_mem_toString c h)
    | cons next ids =>
      rw [List.map_cons, List.map_cons, List.intercalate_cons_cons, List.mem_append,
        List.mem_append] at h
      rcases h with (h | h) | h
      · exact .inl (isDigit_of_mem_toString c h)
      · exact .inr (List.mem_singleton.1 h)
      · exact ih h

/-- The numbers in a list are those that it was made from. -/
theorem numbersIn_idList (h : ids ≠ []) :
    numbersIn (idList ids).toList = ids.map (·.text.toList) := by
  rw [toList_idList, numbersIn, List.splitOn_intercalate]
  · intro number hnumber hcomma
    obtain ⟨id, -, rfl⟩ := List.mem_map.1 hnumber
    exact absurd (isDigit_of_mem_toString ',' hcomma) (by decide)
  · simpa using h

theorem harmless_idList (ids : List ClassId) : Sql.Harmless (idList ids).toList := by
  intro c hc
  rcases isDigit_or_eq_of_mem_idList hc with hdigit | rfl
  · have hone : ∀ d ∈ [c], d.isDigit = true := by simpa using hdigit
    exact Sql.harmless_of_isDigit hone c (List.mem_singleton_self c)
  · decide

theorem quiet_idList (ids : List ClassId) : Sql.Quiet (idList ids).toList := by
  intro c hc hnoisy
  simp only [Sql.noisyChars, List.mem_cons, List.not_mem_nil, or_false] at hnoisy
  rcases isDigit_or_eq_of_mem_idList hc with hdigit | rfl
  · rcases hnoisy with rfl | rfl | rfl | rfl <;> exact absurd hdigit (by decide)
  · exact absurd hnoisy (by decide)

/-- A list of identifiers is read as a whole. -/
theorem exists_reads_idList (ids : List ClassId) :
    ∃ items, Reads (idList ids) items ∧ items.flatMap (·.text) = (idList ids).toList :=
  Sql.exists_reads_of_closesFrom
    (Sql.closesFrom_of_shifts (Sql.shifts_of_harmless (harmless_idList ids)))
    (Sql.isCommentFree_of_passes (Sql.passes_of_quiet (quiet_idList ids)))

/-! ## Comparisons with a list -/

/-- A column compared with a list of numbers. -/
def comparison (column : String) (ids : List ClassId) : String :=
  column ++ " IN (" ++ idList ids ++ ")"

/-- The items of a comparison, with the list as it is read. -/
def comparisonItems (column : String) (ids : List ClassId) (list : Condition) : List Item :=
  [.word column.toList, .mark ' ', .word ['I', 'N'], .mark ' ', .group (idList ids).toList list]

/-- The column is one word, and connects nothing. -/
def IsColumn (column : String) : Prop :=
  Reads column [.word column.toList] ∧ (Item.word column.toList).isStructural = false

theorem isColumn_base : IsColumn "BaseClassId" :=
  ⟨⟨_, rfl, ⟨rfl, rfl⟩, rfl⟩, by decide⟩

theorem isColumn_class : IsColumn "ClassId" :=
  ⟨⟨_, rfl, ⟨rfl, rfl⟩, rfl⟩, by decide⟩

/-- A comparison with a list is read as its column and the list. -/
theorem exists_reads_comparison {column : String} (h : IsColumn column) (ids : List ClassId) :
    ∃ list, Reads (comparison column ids) (comparisonItems column ids list) := by
  obtain ⟨items, hitems, htext⟩ := exists_reads_idList ids
  have hin : Reads "IN" [.word ['I', 'N']] := ⟨_, rfl, ⟨rfl, rfl⟩, rfl⟩
  have hreads := (h.1.append hin).append hitems.group
  rw [htext] at hreads
  have hsql : comparison column ids = column ++ " " ++ "IN" ++ " " ++ ("(" ++ idList ids ++ ")") := by
    apply String.toList_injective
    simp [comparison]
  rw [hsql]
  exact ⟨.ofItems items, hreads⟩

/-- A comparison with a list has no connectives. -/
theorem atomic_comparisonItems {column : String} (h : IsColumn column) (ids : List ClassId)
    (list : Condition) : Sql.Atomic (comparisonItems column ids list) := by
  simp only [Sql.Atomic, comparisonItems, List.forall_mem_cons]
  exact ⟨h.2, by decide, by decide, by decide, rfl, by simp⟩

/-- A comparison with a list is one operand of a connective. -/
theorem isOperand_comparison {column : String} (h : IsColumn column) (ids : List ClassId) :
    Sql.IsOperand (comparison column ids) := by
  obtain ⟨list, hreads⟩ := exists_reads_comparison h ids
  exact ⟨_, hreads, atomic_comparisonItems h ids list⟩

/-- A comparison with a list is read as one operand. -/
theorem read?_comparison {column : String} (h : IsColumn column) (ids : List ClassId) :
    Sql.read? (comparison column ids) = some (.operand (comparison column ids)) := by
  obtain ⟨list, hreads⟩ := exists_reads_comparison h ids
  have htext : (comparisonItems column ids list).flatMap (·.text)
      = (comparison column ids).toList := by
    simp [comparisonItems, comparison, Item.text]
  have hitems : Condition.ofOperand (comparisonItems column ids list)
      = .operand (String.ofList ((comparisonItems column ids list).flatMap (·.text))) := rfl
  rw [hreads.read?, Condition.ofItems_of_atomic (atomic_comparisonItems h ids list), hitems, htext,
    String.ofList_toList]

/-- The numbers in a comparison are those of its identifiers. -/
theorem numbers?_comparison (column : String) (h : ids ≠ []) :
    numbers? column (comparison column ids) = some (ids.map (·.text.toList)) := by
  rw [numbers?, comparison, String.toList_append, String.toList_append, between?_append,
    Option.map_some, numbersIn_idList h]

theorem numbers?_class_base (ids : List ClassId) :
    numbers? "ClassId" (comparison "BaseClassId" ids) = none := by
  rw [numbers?, comparison, String.toList_append, String.toList_append]
  rfl

theorem numbers?_base_class (ids : List ClassId) :
    numbers? "BaseClassId" (comparison "ClassId" ids) = none := by
  rw [numbers?, comparison, String.toList_append, String.toList_append]
  rfl

variable {row : ClassId × ClassId}

/-- A comparison of base classes says whether the base class of a row is listed. -/
theorem truth_base (h : ids ≠ []) :
    truth row (comparison "BaseClassId" ids) = some (decide (row.2 ∈ ids)) := by
  rw [truth, numbers?_comparison "BaseClassId" h]
  simp [ClassId.text_inj]

/-- A comparison of classes says whether the class of a row is listed. -/
theorem truth_class (h : ids ≠ []) :
    truth row (comparison "ClassId" ids) = some (decide (row.1 ∈ ids)) := by
  rw [truth, numbers?_base_class, numbers?_comparison "ClassId" h]
  simp [ClassId.text_inj]

/-! ## The text of a filter -/

/-- What a filter is read as. -/
def selection (filter : TypeFilter) : ClassSelection :=
  if filter.within = [] then .listed (numbersIn (idList filter.exactly).toList)
  else if filter.exactly = [] then .selected (.operand (comparison "BaseClassId" filter.within))
  else
    .selected (.or (.operand (comparison "BaseClassId" filter.within))
      (.operand (comparison "ClassId" filter.exactly)))

variable {filter : TypeFilter}

/-- A list of classes is read as the numbers in it. -/
theorem read?_listed (ids : List ClassId) :
    ClassSelection.read? ("IN (" ++ idList ids ++ ")")
      = some (.listed (numbersIn (idList ids).toList)) := by
  have hnot : (idList ids).toList.dropPrefix? opening.toList = none := by
    refine Option.eq_none_iff_forall_ne_some.2 fun rest hrest => ?_
    obtain ⟨start, htext, hstart⟩ := List.dropPrefix?_eq_some_iff.1 hrest
    have hmem : 'S' ∈ (idList ids).toList := by
      rw [htext, eq_of_beq hstart]
      exact List.mem_append_left _ (by decide)
    rcases isDigit_or_eq_of_mem_idList hmem with h | h <;> exact absurd h (by decide)
  rw [ClassSelection.read?, String.toList_append, String.toList_append, between?_append]
  show (match (idList ids).toList.dropPrefix? opening.toList with
    | none => _
    | some condition => _) = _
  rw [hnot]
  rfl

/-- A selection of classes is read as the condition in it. -/
theorem read?_selected {text : String} {condition : Condition}
    (h : Sql.read? text = some condition) :
    ClassSelection.read? ("IN (" ++ (opening ++ text) ++ ")") = some (.selected condition) := by
  have hopening : (opening ++ text).toList.dropPrefix? opening.toList = some text.toList :=
    List.dropPrefix?_eq_some_iff.2 ⟨_, String.toList_append, BEq.rfl⟩
  rw [ClassSelection.read?, String.toList_append, String.toList_append, between?_append]
  show (match (opening ++ text).toList.dropPrefix? opening.toList with
    | none => _
    | some condition => _) = _
  rw [hopening]
  show (Sql.read? (String.ofList text.toList)).bind _ = _
  rw [String.ofList_toList, h]
  rfl

/-- Only classes with their subclasses are selected by their base. -/
theorem sql_of_within (h : filter.within ≠ []) (h' : filter.exactly = []) :
    filter.sql = "IN (" ++ (opening ++ comparison "BaseClassId" filter.within) ++ ")" := by
  have hempty : filter.within.isEmpty = false := by simpa using h
  unfold sql opening comparison
  rw [hempty, h']
  apply String.toList_injective
  simp

/-- Classes with and without their subclasses are selected by either. -/
theorem sql_of_both (h : filter.within ≠ []) (h' : filter.exactly ≠ []) :
    filter.sql = "IN (" ++ (opening ++ Sql.connectedText .or (comparison "BaseClassId" filter.within)
      [comparison "ClassId" filter.exactly]) ++ ")" := by
  have hempty : filter.within.isEmpty = false := by simpa using h
  have hempty' : filter.exactly.isEmpty = false := by simpa using h'
  unfold sql opening comparison
  rw [hempty, hempty']
  apply String.toList_injective
  simp [Sql.connectedText, Sql.Connective.sql]

/-- A filter on types is read as the selection that it means. -/
theorem read?_sql (filter : TypeFilter) :
    ClassSelection.read? filter.sql = some filter.selection := by
  unfold selection
  by_cases hwithin : filter.within = []
  · have hsql : filter.sql = "IN (" ++ idList filter.exactly ++ ")" := by
      rw [sql, hwithin]
      rfl
    rw [if_pos hwithin, hsql]
    exact read?_listed filter.exactly
  · rw [if_neg hwithin]
    by_cases hexactly : filter.exactly = []
    · rw [if_pos hexactly, sql_of_within hwithin hexactly]
      exact read?_selected (read?_comparison isColumn_base _)
    · rw [if_neg hexactly, sql_of_both hwithin hexactly]
      have hclass : ∀ next ∈ [comparison "ClassId" filter.exactly], Sql.IsOperand next := by
        simpa using isOperand_comparison isColumn_class filter.exactly
      obtain ⟨first, rest, hfirst, hrest, hread⟩ := Sql.read?_connectedText
        (isOperand_comparison isColumn_base filter.within) hclass
      obtain ⟨second, _, hsecond, hnone, rfl⟩ := List.forall₂_cons_left_iff.1 hrest
      obtain rfl := List.forall₂_nil_left_iff.1 hnone
      rw [read?_comparison isColumn_base] at hfirst
      rw [read?_comparison isColumn_class] at hsecond
      obtain rfl := Option.some.inj hfirst
      obtain rfl := Option.some.inj hsecond
      exact read?_selected (hread .or).2

/-- Which classes the condition accepts, by the numbers in its lists. -/
theorem accepts_selection {rows : List (ClassId × ClassId)} {id : ClassId}
    (h : filter.within ≠ [] ∨ filter.exactly ≠ []) :
    filter.selection.accepts rows id = true ↔
      if filter.within = [] then id ∈ filter.exactly
      else ∃ base, (id, base) ∈ rows ∧ (base ∈ filter.within ∨ id ∈ filter.exactly) := by
  unfold selection
  split_ifs with hwithin hexactly
  · have hexactly : filter.exactly ≠ [] := h.resolve_left (not_not_intro hwithin)
    rw [accepts, numbersIn_idList hexactly]
    simp [ClassId.text_inj]
  · rw [hexactly]
    simp only [accepts, Condition.value, truth_base hwithin, List.any_eq_true, Bool.and_eq_true,
      decide_eq_true_eq, Option.some.injEq, List.not_mem_nil, or_false, Prod.exists]
    constructor
    · rintro ⟨_, base, hrow, rfl, hbase⟩
      exact ⟨base, hrow, hbase⟩
    · rintro ⟨base, hrow, hbase⟩
      exact ⟨id, base, hrow, rfl, hbase⟩
  · simp only [accepts, Condition.value, truth_base hwithin, truth_class hexactly,
      List.any_eq_true, Bool.and_eq_true, decide_eq_true_eq, Prod.exists]
    constructor
    · rintro ⟨_, base, hrow, rfl, hholds⟩
      refine ⟨base, hrow, ?_⟩
      rcases Condition.either_eq_true.1 hholds with h | h
      · exact .inl (by simpa using h)
      · exact .inr (by simpa using h)
    · rintro ⟨base, hrow, hholds⟩
      refine ⟨id, base, hrow, rfl, Condition.either_eq_true.2 ?_⟩
      simpa using hholds

/-- The numbers in a selection are those of the classes without their subclasses. -/
theorem classNumbers_selection (h : filter.within ≠ [] ∨ filter.exactly ≠ []) :
    filter.selection.classNumbers = filter.exactly.map (·.text.toList) := by
  unfold selection
  split_ifs with hwithin hexactly
  · exact numbersIn_idList (h.resolve_left (not_not_intro hwithin))
  · rw [hexactly]
    simp [classNumbers, Condition.operands, numbers?_class_base]
  · simp [classNumbers, Condition.operands, numbers?_class_base, numbers?_comparison _ hexactly]

end TypeFilter

end EntitySql
