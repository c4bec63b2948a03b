import EntitySql.Proofs.Storage.Database
import EntitySql.Proofs.Storage.ViewText
import EntitySql.Proofs.Text.Digits

/-!
# Reading the text of a view

How a database reads the text of a view: in parentheses, selects with `UNION ALL` between them, each
from one table and with at most one condition on the class of a row, and an alias behind them. The
readers look at the text only, whatever it was made from, and what they find has rows of its own
(`ViewText.rows`).

If the names of a view may stand in brackets, its text is read as the view (`View.read?_sql`), and
has the rows of the view (`View.rows_said`).
-/

namespace EntitySql

open Sql (Bracketable bracketed qualified)

/-! ## What a text says -/

/-- What a select shows in a column. -/
inductive ValueText where
  /-- A column of a table. -/
  | column (table name : String)
  | number (value : Nat)
  | null
deriving DecidableEq

/-- A column of a select, with the name that it gets. -/
structure ColumnText where
  value : ValueText
  name : String
deriving DecidableEq

/-- A test of a number. -/
inductive TestText where
  | equals (value : Nat)
  /-- The number is a class that stands with this base class in the table of classes. -/
  | derives (base : Nat)
deriving DecidableEq

/-- A test of a column of a table. -/
structure ConditionText where
  table : String
  column : String
  test : TestText
deriving DecidableEq

/-- A select from one table. -/
structure ArmText where
  space : String
  table : String
  columns : List ColumnText
  condition : Option ConditionText
deriving DecidableEq

/-- Selects one behind the other, under an alias. -/
structure ViewText where
  arms : List ArmText
  aliasName : String
deriving DecidableEq

/-- What a column shows of a row of a table. A column of another table is no column of the row. -/
def ValueText.cell? (table : String) (row : Row) : ValueText → Option Cell
  | .column qualifier name => if qualifier = table then some (row.cell name) else none
  | .number value => some (.integer value)
  | .null => some .null

/-- Whether a value passes a test. -/
def TestText.accepts (db : Database) (cell : Cell) : TestText → Bool
  | .equals value => cell = .integer value
  | .derives base => db.hierarchy.any fun row => row.1.cell = cell && row.2.cell = .integer base

/-- Whether a row of a table meets a condition. -/
def ConditionText.holds (condition : ConditionText) (db : Database) (table : String) (row : Row) :
    Bool :=
  condition.table = table && condition.test.accepts db (row.cell condition.column)

namespace ArmText

/-- The rows that a select reads. -/
def rows (arm : ArmText) (db : Database) : List Row :=
  db.rows.filter fun row => row.table = arm.table && arm.condition.all (·.holds db arm.table row)

/-- What a select shows of a row under a name. -/
def cell? (arm : ArmText) (name : String) (row : Row) : Option Cell :=
  (arm.columns.find? (·.name = name)).bind (·.value.cell? arm.table row)

end ArmText

/-- The rows that the selects read. -/
def ViewText.rows (view : ViewText) (db : Database) : List Row :=
  view.arms.flatMap (·.rows db)

/-! ## Reading -/

/-- A reader of the beginning of a text. It leaves the rest. -/
abbrev Reading := StateT (List Char) Option

namespace Reading

variable {α : Type}

/-- Reads a fixed text. -/
def skip (text : String) : Reading Unit :=
  fun chars => (chars.dropPrefix? text.toList).map ((), ·)

/-- Reads the longest beginning whose characters pass a test. -/
def takeWhile (p : Char → Bool) : Reading (List Char) :=
  fun chars => some (chars.takeWhile p, chars.dropWhile p)

/-- Reads at most so many items with a separator between them. -/
def separatedWithin (separator : String) (item : Reading α) : Nat → Reading (List α)
  | 0 => failure
  | bound + 1 => do
    let first ← item
    (do
      skip separator
      return first :: (← separatedWithin separator item bound)) <|> return [first]

/-- Reads items with a separator between them. There are no more of them than characters are
left, apart from the first. -/
def separated (separator : String) (item : Reading α) : Reading (List α) :=
  fun chars => separatedWithin separator item (chars.length + 1) chars

/-- Reads a name in brackets. -/
def name : Reading String := do
  skip "["
  let chars ← takeWhile (· ≠ ']')
  skip "]"
  return String.ofList chars

/-- Reads a number. -/
def number : Reading Nat := do
  let digits ← takeWhile (·.isDigit)
  guard (digits ≠ [])
  return Nat.ofDigitChars 10 digits 0

/-- Reads two names in brackets with a dot between them. -/
def names : Reading (String × String) := do
  let first ← name
  skip "."
  return (first, ← name)

/-- Reads what a column shows. -/
def value : Reading ValueText :=
  (do
    let (table, column) ← names
    return .column table column)
  <|> (do
    return .number (← number))
  <|> (do
    skip "NULL"
    return .null)

/-- Reads a column with its name. -/
def column : Reading ColumnText := do
  let value ← value
  skip " "
  return ⟨value, ← name⟩

/-- Reads a test on the class of a row. -/
def test : Reading TestText :=
  (do
    skip "="
    return .equals (← number))
  <|> (do
    skip (" IN (SELECT ClassId FROM " ++ hierarchyTable ++ " WHERE BaseClassId=")
    let base ← number
    skip ")"
    return .derives base)

/-- Reads a condition with its keyword. -/
def condition : Reading ConditionText := do
  skip " WHERE "
  let (table, column) ← names
  return ⟨table, column, ← test⟩

/-- Reads a condition if there is one. -/
def condition? : Reading (Option ConditionText) :=
  (do
    return some (← condition))
  <|> return none

/-- Reads a select from one table. -/
def arm : Reading ArmText := do
  skip "SELECT "
  let columns ← separated "," column
  skip " FROM "
  let (space, table) ← names
  return ⟨space, table, columns, ← condition?⟩

/-- Reads selects in parentheses, and the alias behind them. -/
def view : Reading ViewText := do
  skip "("
  let arms ← separated " UNION ALL " arm
  skip ") "
  return ⟨arms, ← name⟩

end Reading

/-- What a text says, if it is the text of a view. -/
def ViewText.read? (text : String) : Option ViewText :=
  match Reading.view text.toList with
  | some (view, []) => some view
  | _ => none

/-! ## What the readers take -/

namespace Reading

variable {α β : Type} {F G : List Char → Prop} {p q : Reading α} {f : α → Reading β} {x y : String}
  {a : α} {b : β}

/-- The reader takes the text as `a`, where the rest is one of those that `F` admits. -/
def Takes (F : List Char → Prop) (p : Reading α) (x : String) (a : α) : Prop :=
  ∀ rest, F rest → p (x.toList ++ rest) = some (a, rest)

/-- The reader takes no text that begins so. -/
def Rejects (p : Reading α) (x : String) : Prop :=
  ∀ rest, p (x.toList ++ rest) = none

/-- Every rest. -/
def Any (_ : List Char) : Prop :=
  True

/-- The rest does not go on with a digit. -/
def NoDigit (rest : List Char) : Prop :=
  ∀ c ∈ rest.head?, c.isDigit = false

/-- The rest does not begin with a text. -/
def NotWith (text : String) (rest : List Char) : Prop :=
  rest.dropPrefix? text.toList = none

/-- More may be known of what follows. -/
theorem Takes.mono (h : Takes F p x a) (hrest : ∀ rest, G rest → F rest) : Takes G p x a :=
  fun rest hG => h rest (hrest rest hG)

/-- Readers one behind the other take texts one behind the other. -/
theorem Takes.bind (h : Takes F p x a) (hnext : Takes G (f a) y b)
    (hrest : ∀ rest, G rest → F (y.toList ++ rest)) : Takes G (p >>= f) (x ++ y) b := by
  intro rest hG
  rw [String.toList_append, List.append_assoc]
  show (p _).bind _ = _
  rw [h _ (hrest rest hG)]
  exact hnext rest hG

/-- What was read is turned into the result, and nothing more is read. -/
theorem Takes.result (h : Takes F p x a) (hresult : ∀ rest, f a rest = some (b, rest)) :
    Takes F (p >>= f) x b := by
  intro rest hF
  show (p _).bind _ = _
  rw [h rest hF]
  exact hresult rest

/-- The first reader takes it, so the second one is not asked. -/
theorem Takes.orElse_left (h : Takes F p x a) : Takes F (p <|> q) x a := by
  intro rest hF
  show (p _ <|> q _) = _
  rw [h rest hF]
  rfl

/-- The second reader takes it if the first one rejects it. -/
theorem Takes.orElse_right (h : Rejects p x) (hq : Takes F q x a) : Takes F (p <|> q) x a := by
  intro rest hF
  show (p _ <|> q _) = _
  rw [h rest]
  exact hq rest hF

/-- What is rejected first is rejected. -/
theorem Rejects.bind (h : Rejects p x) : Rejects (p >>= f) x := by
  intro rest
  show (p _).bind _ = _
  rw [h rest]
  rfl

/-- What was read first leaves nothing that can be read next. -/
theorem rejects_bind (h : ∀ rest, ∃ a left, p (x.toList ++ rest) = some (a, left) ∧ f a left = none) :
    Rejects (p >>= f) x := by
  intro rest
  obtain ⟨a, left, hfirst, hnext⟩ := h rest
  show (p _).bind _ = _
  rw [hfirst]
  exact hnext

theorem takes_skip (x : String) : Takes F (skip x) x () := by
  intro rest _
  have hdrop : (x.toList ++ rest).dropPrefix? x.toList = some rest :=
    List.dropPrefix?_eq_some_iff.2 ⟨_, rfl, BEq.rfl⟩
  rw [skip, hdrop]
  rfl

/-- A fixed text is not read where another character stands first. -/
theorem rejects_skip {c d : Char} (hx : x.toList.head? = some c) (hy : y.toList.head? = some d)
    (hne : c ≠ d) : Rejects (skip y) x := by
  obtain ⟨cs, hcs⟩ := List.head?_eq_some_iff.1 hx
  obtain ⟨ds, hds⟩ := List.head?_eq_some_iff.1 hy
  intro rest
  rw [skip, hcs, hds, List.cons_append, List.dropPrefix?, if_neg (by simpa using hne)]
  rfl

/-- A fixed text is read before something else. -/
theorem Takes.skip_bind {next : Unit → Reading β} (h : Takes G (next ()) y b) (x : String) :
    Takes G (skip x >>= next) (x ++ y) b :=
  (takes_skip (F := Any) x).bind h fun _ _ => trivial

/-- Characters are taken as long as they pass the test. -/
theorem takes_takeWhile {test : Char → Bool} (h : ∀ c ∈ x.toList, test c = true) :
    Takes (fun rest => ∀ c ∈ rest.head?, test c = false) (takeWhile test) x x.toList := by
  intro rest hrest
  have htake : rest.takeWhile test = [] := by
    cases rest with
    | nil => rfl
    | cons c rest => exact List.takeWhile_cons_of_neg (by simp [hrest c rfl])
  have hdrop : rest.dropWhile test = rest := by
    cases rest with
    | nil => rfl
    | cons c rest => exact List.dropWhile_cons_of_neg (by simp [hrest c rfl])
  rw [takeWhile, List.takeWhile_append_of_pos h, List.dropWhile_append_of_pos h, htake, hdrop,
    List.append_nil]

/-- A name in brackets is read up to the closing bracket. -/
theorem takes_name (h : Bracketable x) : Takes F name (bracketed x) x := by
  have hchars : ∀ c ∈ x.toList, decide (c ≠ ']') = true :=
    fun c hc => decide_eq_true (h.unbracketed c hc).2
  have hname : Takes F name ("[" ++ (x ++ "]")) x := by
    refine Takes.skip_bind ((takes_takeWhile hchars).bind ((takes_skip "]").result ?_) ?_) "["
    · intro rest
      rw [String.ofList_toList]
      rfl
    · rintro rest - c hc
      obtain rfl := Option.some.inj hc
      rfl
  rwa [← String.append_assoc] at hname

/-- A qualified name is read as two names. -/
theorem takes_names (hx : Bracketable x) (hy : Bracketable y) :
    Takes F names (qualified x y) (x, y) := by
  have hnames : Takes F names (bracketed x ++ ("." ++ bracketed y)) (x, y) :=
    (takes_name (F := Any) hx).bind (Takes.skip_bind ((takes_name hy).result fun _ => rfl) ".")
      fun _ _ => trivial
  rwa [← String.append_assoc] at hnames

/-- A number is read up to the last digit. -/
theorem takes_number (n : Nat) : Takes NoDigit number (toString n) n := by
  have hne : (toString n).toList ≠ [] := toList_toString n ▸ Nat.toDigits_ne_nil
  refine (takes_takeWhile isDigit_of_mem_toString).result fun rest => ?_
  rw [guard, if_pos hne, ofDigitChars_toString]
  rfl

/-! ## Lists -/

/-- Items are read up to a text that does not go on with the separator. -/
theorem takes_separatedWithin {γ : Type} {separator : String} {item : Reading α} {text : γ → String}
    {said : γ → α} {first : γ} {l : List γ} {bound : Nat}
    (hitem : ∀ c ∈ first :: l, Takes F item (text c) (said c))
    (hseparator : ∀ rest, F (separator.toList ++ rest)) (hbound : l.length < bound) :
    Takes (fun rest => F rest ∧ NotWith separator rest) (separatedWithin separator item bound)
      (separator.intercalate ((first :: l).map text)) ((first :: l).map said) := by
  induction l generalizing first bound with
  | nil =>
    obtain ⟨bound, rfl⟩ := Nat.exists_eq_add_of_lt hbound
    rintro rest ⟨hF, hend⟩
    have hfirst := hitem first (List.mem_cons_self ..) rest hF
    rw [List.map_singleton, String.intercalate_singleton]
    show (item _).bind _ = _
    rw [hfirst]
    show ((skip separator rest).bind _ <|> _) = _
    rw [skip, hend]
    rfl
  | cons second l ih =>
    obtain ⟨bound, rfl⟩ : ∃ n, bound = n + 1 := ⟨bound - 1, by omega⟩
    have hfirst := hitem first (List.mem_cons_self ..)
    have hrest := ih (fun c hc => hitem c (List.mem_cons_of_mem _ hc)) (Nat.lt_of_succ_lt_succ hbound)
    rw [List.map_cons, List.map_cons, String.intercalate_cons_cons, String.append_assoc]
    refine hfirst.bind (.orElse_left (Takes.skip_bind (hrest.result fun _ => rfl) separator)) ?_
    intro rest _
    rw [String.toList_append, List.append_assoc]
    exact hseparator _

/-- A text with separators is long enough to count them. -/
theorem length_le_intercalate {separator : String} (hseparator : separator.toList ≠ [])
    (first : String) (texts : List String) :
    texts.length ≤ (separator.intercalate (first :: texts)).toList.length := by
  induction texts generalizing first with
  | nil => exact Nat.zero_le _
  | cons second texts ih =>
    have hlength := List.length_pos_of_ne_nil hseparator
    have hrest := ih second
    rw [String.intercalate_cons_cons, String.toList_append, String.toList_append,
      List.length_append, List.length_append, List.length_cons]
    omega

/-- Items with a separator between them are read one by one. -/
theorem takes_separated {γ : Type} {separator : String} {item : Reading α} {text : γ → String}
    {said : γ → α} {l : List γ} (hne : l ≠ []) (hitem : ∀ c ∈ l, Takes F item (text c) (said c))
    (hseparator : ∀ rest, F (separator.toList ++ rest)) (hempty : separator.toList ≠ []) :
    Takes (fun rest => F rest ∧ NotWith separator rest) (separated separator item)
      (separator.intercalate (l.map text)) (l.map said) := by
  obtain ⟨first, l, rfl⟩ := List.exists_cons_of_ne_nil hne
  intro rest hrest
  have hlength := length_le_intercalate hempty (text first) (l.map text)
  rw [List.length_map] at hlength
  refine takes_separatedWithin hitem hseparator ?_ rest hrest
  rw [List.length_append, List.map_cons]
  omega

end Reading

/-! ## What the text of a view says -/

/-- What the text of a column says. -/
def ViewColumn.said (column : ViewColumn) (table : Table) : ColumnText where
  value :=
    match column.source with
    | some (.column name) => .column table.name name
    | some (.classId id) => .number id.value.toNat
    | none => .null
  name := column.name

/-- What the text of a filter says. -/
def ClassFilter.said : ClassFilter → TestText
  | .exactly id => .equals id.value.toNat
  | .within id => .derives id.value.toNat

/-- What the text of an arm says. -/
def ViewArm.said (arm : ViewArm) : ArmText where
  space := arm.table.space
  table := arm.table.name
  columns := arm.columns.map (·.said arm.table)
  condition := arm.filter.map fun p => ⟨arm.table.name, p.1, p.2.said⟩

/-- What the text of a view says. -/
def View.said (view : View) (aliasName : String) : ViewText :=
  ⟨view.arms.map (·.said), aliasName⟩

namespace Reading

variable {F : List Char → Prop} {x : String} {arm : ViewArm}

/-- No qualified name is read where something else than a bracket stands first. -/
theorem rejects_names {c : Char} (hx : x.toList.head? = some c) (hc : c ≠ '[') :
    Rejects names x := by
  have hopen : Rejects (skip "[") x := rejects_skip hx rfl hc
  exact hopen.bind.bind

/-- A number begins with a digit. -/
theorem exists_head?_toString (n : Nat) :
    ∃ c, (toString n).toList.head? = some c ∧ c.isDigit = true := by
  obtain ⟨c, cs, hcs⟩ := List.exists_cons_of_ne_nil (toList_toString n ▸ Nat.toDigits_ne_nil)
  exact ⟨c, hcs ▸ rfl, isDigit_of_mem_toString c (hcs ▸ List.mem_cons_self ..)⟩

theorem rejects_number {c : Char} (hx : x.toList.head? = some c) (hc : c.isDigit = false) :
    Rejects number x := by
  obtain ⟨cs, hcs⟩ := List.head?_eq_some_iff.1 hx
  refine rejects_bind fun rest => ⟨[], x.toList ++ rest, ?_, rfl⟩
  rw [takeWhile, hcs, List.cons_append, List.takeWhile_cons_of_neg (by simp [hc]),
    List.dropWhile_cons_of_neg (by simp [hc])]

/-- A column of a table is read as such. -/
theorem takes_value_column {table : String} (htable : Bracketable table) (hx : Bracketable x) :
    Takes F value (qualified table x) (.column table x) :=
  .orElse_left ((takes_names htable hx).result fun _ => rfl)

/-- A number is read as such. -/
theorem takes_value_number (n : Nat) : Takes NoDigit value (toString n) (.number n) := by
  obtain ⟨c, hc, hdigit⟩ := exists_head?_toString n
  have hbracket : c ≠ '[' := by
    rintro rfl
    cases hdigit
  exact .orElse_right (rejects_names hc hbracket).bind
    (.orElse_left ((takes_number n).result fun _ => rfl))

/-- `NULL` is read as such. -/
theorem takes_value_null : Takes F value "NULL" .null := by
  have hnumber : Rejects number "NULL" := rejects_number rfl rfl
  exact .orElse_right (rejects_names rfl (by decide)).bind
    (.orElse_right hnumber.bind ((takes_skip "NULL").result fun _ => rfl))

/-- A column of a view is read with its name. -/
theorem takes_column {text name : String} {shown : ValueText}
    (hvalue : Takes NoDigit value text shown) (hname : Bracketable name) :
    Takes F column (text ++ " " ++ bracketed name) ⟨shown, name⟩ := by
  rw [String.append_assoc]
  refine hvalue.bind (Takes.skip_bind ((takes_name hname).result fun _ => rfl) " ") ?_
  rintro rest - c hc
  rw [String.toList_append] at hc
  obtain rfl := Option.some.inj hc
  rfl

/-- The test on a class is read as what it says. -/
theorem takes_test (filter : ClassFilter) : Takes NoDigit test filter.test filter.said := by
  cases filter with
  | exactly id =>
    exact .orElse_left
      (Takes.skip_bind ((takes_number id.value.toNat).result fun _ => rfl) "=")
  | within id =>
    let opening := " IN (SELECT ClassId FROM " ++ hierarchyTable ++ " WHERE BaseClassId="
    have hopening : opening.toList.head? = some ' ' := by decide
    have hderives : Takes NoDigit test (opening ++ (toString id.value.toNat ++ ")"))
        (.derives id.value.toNat) := by
      refine .orElse_right ?_ (Takes.skip_bind ((takes_number id.value.toNat).bind
        ((takes_skip ")").result fun _ => rfl) ?_) _)
      · refine Rejects.bind (rejects_skip (d := '=') ?_ rfl (by decide : ' ' ≠ '='))
        rw [String.toList_append, List.head?_append, hopening]
        rfl
      · rintro rest - c hc
        obtain rfl := Option.some.inj hc
        rfl
    rwa [← String.append_assoc] at hderives

/-- A column of a view is read as what it shows. -/
theorem takes_viewColumn (h : arm.Named Bracketable) {shown : ViewColumn}
    (hshown : shown ∈ arm.columns) :
    Takes F column (shown.sql arm.table) (shown.said arm.table) := by
  have hsource := h.sources shown hshown
  have hname := h.names shown hshown
  obtain ⟨source, name⟩ := shown
  refine takes_column ?_ hname
  match source with
  | none => exact takes_value_null
  | some (.column x) => exact takes_value_column (h.table _ (List.mem_cons_self ..)) (hsource x rfl)
  | some (.classId id) => exact takes_value_number id.value.toNat

/-- The condition of an arm is read as what it says. -/
theorem takes_viewCondition (h : arm.Named Bracketable) {filter : ClassFilter}
    (hfilter : arm.filter = some (x, filter)) :
    Takes NoDigit condition (" WHERE " ++ filter.sql (qualified arm.table.name x))
      ⟨arm.table.name, x, filter.said⟩ := by
  have hnames : Takes Any names (qualified arm.table.name x) (arm.table.name, x) :=
    takes_names (h.table _ (List.mem_cons_self ..)) (h.filter _ hfilter)
  rw [filter.sql_eq]
  exact Takes.skip_bind (hnames.bind ((takes_test filter).result fun _ => rfl) fun _ _ => trivial) _

/-- The rest does not go on with what can be read last in an arm. -/
def BehindArm (rest : List Char) : Prop :=
  NoDigit rest ∧ NotWith " WHERE " rest

/-- No condition is read where there is none. -/
theorem takes_condition?_none : Takes (NotWith " WHERE ") condition? "" none := by
  intro rest hrest
  have hskip : skip " WHERE " rest = none := by
    rw [skip, hrest]
    rfl
  show (((skip " WHERE " rest).bind _).bind _ <|> _) = _
  rw [hskip]
  rfl

/-- An arm is read as what it says. -/
theorem takes_viewArm (h : arm.Named Bracketable) (hcolumns : arm.columns ≠ []) :
    Takes BehindArm Reading.arm arm.sql arm.said := by
  have hlist : Takes (fun rest => Any rest ∧ NotWith "," rest) (separated "," column)
      (",".intercalate (arm.columns.map (·.sql arm.table))) (arm.columns.map (·.said arm.table)) :=
    takes_separated hcolumns (fun _ => takes_viewColumn h) (fun _ => trivial) (by decide)
  have hnames : Takes Any names arm.table.qualifiedName (arm.table.space, arm.table.name) := by
    rw [Table.qualifiedName_eq]
    exact takes_names (h.table _ (by simp [Table.identifiers])) (h.table _ (List.mem_cons_self ..))
  rw [ViewArm.sql, String.append_assoc, String.append_assoc, String.append_assoc]
  refine Takes.skip_bind (hlist.bind (Takes.skip_bind (hnames.bind ?_ fun _ _ => trivial) _) ?_) _
  · obtain ⟨table, columns, filter⟩ := arm
    cases filter with
    | some p =>
      have hcondition := takes_viewCondition h rfl
      refine Takes.result ?_ fun _ => rfl
      exact .orElse_left ((hcondition.mono fun _ hrest => hrest.1).result fun _ => rfl)
    | none => exact (takes_condition?_none.mono fun _ hrest => hrest.2).result fun _ => rfl
  · rintro rest -
    refine ⟨trivial, ?_⟩
    rw [String.toList_append]
    rfl

/-- A view is read as what it says, arm by arm. -/
theorem takes_view {view : View} (hne : view.arms ≠ [])
    (harms : ∀ arm ∈ view.arms, arm.Named Bracketable ∧ arm.columns ≠ []) (hx : Bracketable x) :
    Takes F Reading.view (view.sql x) (view.said x) := by
  have hlist : Takes (fun rest => BehindArm rest ∧ NotWith " UNION ALL " rest)
      (separated " UNION ALL " Reading.arm) (" UNION ALL ".intercalate (view.arms.map (·.sql)))
      (view.arms.map (·.said)) := by
    refine takes_separated hne (fun arm harm => ?_) (fun rest => ?_) (by decide)
    · exact takes_viewArm (harms arm harm).1 (harms arm harm).2
    · refine ⟨?_, rfl⟩
      rintro c hc
      obtain rfl := Option.some.inj hc
      rfl
  rw [View.sql, String.append_assoc, String.append_assoc]
  refine Takes.skip_bind (hlist.bind (Takes.skip_bind ((takes_name hx).result fun _ => rfl) _) ?_) _
  rintro rest -
  rw [String.toList_append]
  refine ⟨⟨?_, rfl⟩, rfl⟩
  rintro c hc
  obtain rfl := Option.some.inj hc
  rfl

end Reading

/-- The text of a view is read as the view. -/
theorem View.read?_sql {view : View} {aliasName : String} (hne : view.arms ≠ [])
    (harms : ∀ arm ∈ view.arms, arm.Named Bracketable ∧ arm.columns ≠ [])
    (halias : Bracketable aliasName) :
    ViewText.read? (view.sql aliasName) = some (view.said aliasName) := by
  have hview := Reading.takes_view (F := Reading.Any) hne harms halias [] trivial
  rw [List.append_nil] at hview
  rw [ViewText.read?, hview]

/-! ## The rows of what is read -/

/-- What a filter says accepts the same classes. -/
theorem ClassFilter.accepts_said (filter : ClassFilter) (db : Database) (cell : Cell) :
    filter.said.accepts db cell = filter.accepts db cell := by
  cases filter with
  | exactly id => rfl
  | within id =>
    simp only [said, TestText.accepts, accepts]
    refine congrArg _ (funext fun row => ?_)
    have hcell : row.2.cell = id.cell ↔ row.2 = id := ClassId.cell_inj
    rw [← decide_eq_decide.2 hcell]
    rfl

/-- What an arm says reads the same rows. -/
theorem ViewArm.rows_said (arm : ViewArm) (db : Database) : arm.said.rows db = arm.rows db := by
  refine List.filter_congr fun row _ => ?_
  obtain ⟨table, columns, filter⟩ := arm
  rcases filter with _ | ⟨column, filter⟩
  · rfl
  · show (_ && (decide (table.name = table.name) && filter.said.accepts db (row.cell column))) = _
    rw [filter.accepts_said, decide_eq_true rfl, Bool.true_and]
    rfl

/-- What an arm says shows the same cells. -/
theorem ViewArm.cell?_said (arm : ViewArm) (name : String) (row : Row) :
    arm.said.cell? name row = arm.cell? name row := by
  have hcolumn (column : ViewColumn) :
      (column.said arm.table).value.cell? arm.table.name row = some (column.cell row) := by
    obtain ⟨source, _⟩ := column
    match source with
    | none => rfl
    | some (.column _) => exact if_pos rfl
    | some (.classId _) => rfl
  show ((arm.columns.map (·.said arm.table)).find? _).bind _ = _
  rw [List.find?_map, Option.bind_map, cell?, Option.map_eq_bind]
  exact congrArg (Option.bind _) (funext hcolumn)

/-- What is read in the text of a view has the rows of the view. -/
theorem View.rows_said (view : View) (aliasName : String) (db : Database) :
    (view.said aliasName).rows db = view.rows db := by
  simp [said, ViewText.rows, rows, List.flatMap_map, ViewArm.rows_said]

end EntitySql
