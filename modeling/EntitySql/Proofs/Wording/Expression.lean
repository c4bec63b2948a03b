import EntitySql.Proofs.Wording.Enclosed

/-!
# The words of expressions

Which words can stand outside of parentheses, brackets and quotes in the columns of an expression:
those that every `Admissible` predicate admits, the names of functions, and `OR`. `Exp.exposesOr`
tells from the syntax whether an `OR` can. One that the source has without parentheses does, and so
does one in an operand that is written without parentheses around it. There is no other way in which
a word gets outside: this passes from the parts of an expression to the whole
(`Setting.closed_wording`), and so it holds of every run.

Where operands are written in parentheses, nothing is asked of them. For the other expressions there
is one lemma each: `P` admits the words in their columns if it does so for their operands.
-/

namespace EntitySql

open Lowering
open Sql (Bracketable Columns Fragment IsWord OnlyWords Predicate Promise Unmarked bracketed
  isWordChar qualified quoted textSymbols)

mutual

/-- Whether an `OR` can stand outside of parentheses in the columns of the expression. -/
def Exp.exposesOr : Exp → Bool
  | .boolean lhs op rhs parenthesized =>
    !parenthesized && (op = .or || lhs.exposesOr || rhs.exposesOr)
  | .arithmetic lhs _ rhs _ parenthesized => !parenthesized && (lhs.exposesOr || rhs.exposesOr)
  | .not operand parenthesized => !parenthesized && operand.exposesOr
  | .sign _ operand _ => operand.exposesOr
  | .between operand lower upper _ => operand.exposesOr || lower.exposesOr || upper.exposesOr
  | .like operand pattern escape _ =>
    operand.exposesOr || pattern.exposesOr || optionExposesOr escape
  -- a cast to the type that the operand has already is not written, and one to a truth value is a
  -- case distinction
  | .cast operand target =>
    (operand.type.primitive? = target.primitive? || target.primitive? = some .boolean)
      && operand.exposesOr
  | .case branches otherwise _ => branchesExposeOr branches || optionExposesOr otherwise
  | .navigation ⟨_, id, relationship, _⟩ => id.exposesOr || optionExposesOr relationship
  | _ => false

/-- Whether an expression that may be absent exposes an `OR`. -/
def optionExposesOr : Option Exp → Bool
  | none => false
  | some e => e.exposesOr

/-- Whether the branches of a case distinction expose an `OR`. -/
def branchesExposeOr : List (CaseBranch Exp) → Bool
  | [] => false
  | ⟨condition, value⟩ :: branches =>
    condition.exposesOr || value.exposesOr || branchesExposeOr branches

end

/-! ## Columns -/

variable {e : Exp} {f : Fragment} {columns : Columns} {P : List Char → Bool}

/-- If the expression exposes an `OR`, `P` admits it. -/
def Exp.Permits (P : List Char → Bool) (e : Exp) : Prop :=
  e.exposesOr = true → P "OR".toList = true

/-- What a missing expression exposes is nothing. -/
theorem permits_option {e : Option Exp} (h : optionExposesOr e = true → P "OR".toList = true) :
    ∀ exp ∈ e, exp.Permits P := by
  rintro exp rfl
  exact h

/-- Branches expose what their conditions and values expose. -/
theorem permits_branches {branches : List (CaseBranch Exp)}
    (h : branchesExposeOr branches = true → P "OR".toList = true) :
    ∀ branch ∈ branches, branch.condition.Permits P ∧ branch.value.Permits P := by
  induction branches with
  | nil => exact List.forall_mem_nil _
  | cons branch branches ih =>
    simp only [branchesExposeOr, Bool.or_eq_true, or_imp] at h
    exact List.forall_mem_cons.2 ⟨h.1, ih h.2⟩

/-- The fragment closes what it opens, and `P` admits the words outside if the expression permits
it. -/
structure Sql.Fragment.DiscreetIn (P : List Char → Bool) (e : Exp) (f : Fragment) : Prop where
  balanced : f.Balanced
  onlyWords : e.Permits P → f.OnlyWords P

/-- The name of a parameter is one word. -/
theorem isWordChar_stem {p : Parameter} (h : p.Worded) :
    ∀ c ∈ p.key.stem.toList, isWordChar c = true := by
  rw [Parameter.key]
  cases hname : p.name with
  | some name => exact h name hname
  | none =>
    show ∀ c ∈ ("ix" ++ toString p.index.toNat).toList, _
    rw [String.toList_append]
    exact List.forall_mem_append.2 ⟨by decide, Sql.isWordChar_toString_nat _⟩

/-- A keyword in front of a fragment, with blanks around it. -/
theorem onlyWords_keyword (keyword : String) (hkeyword : (Fragment.ofText keyword).EndsWord P)
    (hapart : (Fragment.ofText keyword).BeginsApart) (hf : f.OnlyWords P) :
    Fragment.OnlyWords P (keyword ++ f) ∧ Fragment.BeginsApart (keyword ++ f) :=
  ⟨hkeyword.append_onlyWords hf, hapart.append⟩

/-- An operator leaves open nothing. -/
theorem balanced_binary {g : Fragment} (op : BooleanOperator) (hf : f.Balanced)
    (hg : g.Balanced) : (binary f op g).Balanced := by
  have hop : Fragment.Balanced (" " ++ op.sql ++ " ") := by
    cases op with
    | comparison op => cases op <;> decide
    | is | isNot | «in» | notIn | «match» | notMatch | and | or => decide
  exact (hf.append hop).append hg

section

variable (hP : Admissible P)

include hP

/-- `NULL` is a keyword. -/
theorem onlyWords_nullColumns (parenthesized : Bool) (count : Nat) :
    ∀ f ∈ nullColumns parenthesized count, f.Balanced ∧ f.OnlyWords P := by
  intro f hf
  rw [List.eq_of_mem_replicate hf]
  cases parenthesized <;> exact ⟨by decide, hP.onlyWords (by decide)⟩

/-! ## Constants, parameters and properties -/

/-- A literal is a number, a keyword, or a text in quotes. -/
theorem onlyWords_literal {value : LiteralValue} (htexts : ∀ x ∈ value.texts, Unmarked x) :
    (Fragment.ofText value.sql).OnlyWords P := by
  cases value with
  | null => exact hP.onlyWords (f := "NULL") (by decide)
  | boolean b =>
    cases b with
    | true => exact hP.onlyWords (f := "TRUE") (by decide)
    | false => exact hP.onlyWords (f := "FALSE") (by decide)
  | integer n => exact .ofText (Sql.onlyWords_of_numeric hP.numeral (Sql.numeric_toString_int _))
  | double d => exact .ofText (Sql.onlyWords_of_numeric hP.numeral (Sql.numeric_doubleText d))
  | string text => exact .ofText (Sql.endsWord_quoted text).onlyWords
  | date text | timestamp text =>
    have hunmarked := htexts text (List.mem_singleton_self _)
    have hopens : Sql.Opens P (textSymbols "JULIANDAY(") :=
      Sql.Outside.pass_mono hP.keyword (by decide)
    have hcloses : Sql.Closes P (textSymbols ")") :=
      Sql.Outside.pass_mono hP.keyword (by decide)
    refine .ofText ?_
    rw [LiteralValue.sql, Sql.textSymbols_append, Sql.textSymbols_append]
    exact ((hopens.append (Sql.shifts_quoted hunmarked)).close hcloses).onlyWords

/-- A database name is one word that begins with a colon. -/
theorem isWord_nativeName {key : ParameterKey}
    (h : ∀ c ∈ key.stem.toList, isWordChar c = true) (column : Nat) :
    IsWord P (key.nativeName column) := by
  have hchars : (key.nativeName column).toList = ':' :: ("_ecdb_ecsqlparam_".toList
      ++ (key.stem.toList ++ ("_col".toList ++ (toString column).toList))) := by
    unfold ParameterKey.nativeName
    simp only [String.toList_append, List.append_assoc]
    rfl
  constructor
  · rw [hchars]
    simp only [List.forall_mem_cons, List.forall_mem_append]
    exact ⟨by decide, by decide, h, by decide, Sql.isWordChar_toString_nat column⟩
  · rw [hchars]
    exact hP.parameter _

/-- A column has its names in brackets. -/
theorem onlyWords_propertyColumn {aliasName : String} {kind : StatementKind}
    {column : MappedColumn} (halias : Bracketable aliasName)
    (hcolumn : ∀ x ∈ column.identifiers, Bracketable x) :
    OnlyWords P (textSymbols (propertyColumn aliasName kind column)) := by
  rw [MappedColumn.identifiers] at hcolumn
  rw [propertyColumn]
  split
  · exact (Sql.endsWord_qualified halias (hcolumn _ (List.mem_cons_self ..))).onlyWords
  · split
    next name hsource =>
      rw [hsource] at hcolumn
      exact (Sql.endsWord_bracketed (hcolumn name (by simp))).onlyWords
    next id hsource => exact Sql.onlyWords_of_numeric hP.numeral (Sql.numeric_toString_nat _)

/-! ## Expressions on values -/

/-- A conversion encloses its column, except for one to a truth value. -/
theorem onlyWords_castColumn {type : PrimitiveType} (hbalanced : f.Balanced)
    (h : type = .boolean → f.OnlyWords P) : (castColumn f type).OnlyWords P := by
  have hcast (last : Fragment) (hlast : last.Closes isKeyword) :
      Fragment.OnlyWords P ("CAST(" ++ f ++ last) :=
    ((Fragment.Opens.append (hP.opens (by decide)) hbalanced).close (hP.closes hlast)).onlyWords
  cases type with
  | boolean =>
    have hcase : Fragment.OnlyWords P ("CASE WHEN " ++ f) :=
      Fragment.EndsWord.append_onlyWords (hP.endsWord (by decide)) (h rfl)
    exact hcase.append (hP.onlyWords (by decide)) (by decide)
  | binary | geometry | dateTime | double | point2d | point3d | integer | long | string =>
    exact hcast _ (by decide)

/-! ## Conditions -/

/-- Operators are keywords, and only `OR` has to be permitted. -/
theorem separates_booleanOperator {op : BooleanOperator}
    (hop : op = .or → P "OR".toList = true) :
    Fragment.EndsWord P (" " ++ op.sql ++ " ") ∧ Fragment.BeginsApart (" " ++ op.sql ++ " ") := by
  cases op with
  | or =>
    have hor : IsWord P "OR" := ⟨by decide, hop rfl⟩
    have hword : (Fragment.ofText "OR").OnlyWords P := .ofText hor.onlyWords
    have hblank : (Fragment.ofText " ").EndsWord P := hP.endsWord (by decide)
    exact ⟨(hblank.append_onlyWords hword).append_endsWord hblank (by decide), by decide⟩
  | comparison op => exact ⟨hP.endsWord (by cases op <;> decide), by cases op <;> decide⟩
  | is | isNot | «in» | notIn | «match» | notMatch | and =>
    exact ⟨hP.endsWord (by decide), by decide⟩

/-- An operator has the words of both its sides. -/
theorem onlyWords_binary {g : Fragment} {op : BooleanOperator}
    (hop : op = .or → P "OR".toList = true) (hf : f.OnlyWords P) (hg : g.OnlyWords P) :
    (binary f op g).OnlyWords P :=
  hf.between (separates_booleanOperator hP hop).1 (separates_booleanOperator hP hop).2 hg

/-- A list of classes stands in parentheses. -/
theorem separates_typeFilter {negation : String} (h : negation ∈ ["", "NOT "])
    (filter : TypeFilter) :
    Fragment.Balanced (" " ++ negation ++ filter.sql)
      ∧ Fragment.EndsWord P (" " ++ negation ++ filter.sql)
      ∧ Fragment.BeginsApart (" " ++ negation ++ filter.sql) := by
  obtain ⟨x, hsql, hadmits⟩ := filter.exists_sql_eq (p := .balanced)
  have hx : Sql.Shifts 0 0 (textSymbols x) := hadmits trivial
  let keyword := " " ++ negation ++ "IN ("
  have hsymbols : Fragment.symbols (" " ++ negation ++ filter.sql)
      = textSymbols keyword ++ textSymbols x ++ textSymbols ")" := by
    simp only [keyword, hsql, Fragment.symbols_append, Fragment.symbols_ofText,
      Sql.textSymbols_append, List.append_assoc]
  have hkeyword : Sql.Shifts 0 1 (textSymbols keyword) ∧ Sql.Opens isKeyword (textSymbols keyword)
      ∧ Sql.beginsApart (textSymbols keyword) = true := by
    rcases List.mem_pair.1 h with rfl | rfl <;> decide
  rw [Fragment.Balanced, Fragment.EndsWord, Fragment.BeginsApart, hsymbols]
  refine ⟨(hkeyword.1.append (hx.lift 1)).append (by decide), ?_, ?_⟩
  · exact Sql.Outside.pass_mono hP.keyword ((hkeyword.2.1.append hx).close (by decide))
  · exact Sql.beginsApart_append (Sql.beginsApart_append hkeyword.2.2)

/-- Several comparisons are always grouped, so that only a single one is written outside. -/
theorem onlyWords_compound {lhs rhs : Exp} {ls rs : Columns} {op : BooleanOperator}
    {parenthesized : Bool}
    (hls : ∀ f ∈ ls, f.DiscreetIn P lhs) (hrs : ∀ f ∈ rs, f.DiscreetIn P rhs)
    (h : parenthesized = false →
      (op = .or → P "OR".toList = true) ∧ lhs.Permits P ∧ rhs.Permits P) :
    (Predicate.compound ls op rs parenthesized).sql.OnlyWords P := by
  have hsides {p : Fragment × Fragment} (hp : p ∈ ls.zip rs) :
      p.1.DiscreetIn P lhs ∧ p.2.DiscreetIn P rhs :=
    ⟨hls _ (List.of_mem_zip hp).1, hrs _ (List.of_mem_zip hp).2⟩
  rw [Predicate.sql]
  split
  · exact hP.onlyWords (by decide)
  refine .parenthesizedIf (.join ?_ ?_) fun hgrouped => ?_
  · cases (Predicate.compound ls op rs parenthesized).connective <;> decide
  · rw [Predicate.compound, List.map_map]
    refine List.forall_mem_map.2 fun p hp => ?_
    have hzip := List.mem_of_mem_filter hp
    exact balanced_binary op (hsides hzip).1.balanced (hsides hzip).2.balanced
  · unfold Predicate.compound at hgrouped ⊢
    dsimp only at hgrouped ⊢
    split at hgrouped
    next hlength =>
      obtain ⟨p, hp⟩ := List.length_eq_one_iff.1 hlength
      have hmem := List.mem_of_mem_filter (hp ▸ List.mem_singleton_self p)
      obtain ⟨hop, hleft, hright⟩ := h hgrouped
      rw [hp]
      exact onlyWords_binary hP hop ((hsides hmem).1.onlyWords hleft)
        ((hsides hmem).2.onlyWords hright)
    next => cases hgrouped

/-- A range test has the words of all its columns. -/
theorem onlyWords_rangeTest {operand lower upper : Columns} {negated : Bool} {a b c : Exp}
    (ho : ∀ f ∈ operand, f.DiscreetIn P a) (hl : ∀ f ∈ lower, f.DiscreetIn P b)
    (hu : ∀ f ∈ upper, f.DiscreetIn P c)
    (h : a.Permits P ∧ b.Permits P ∧ c.Permits P) :
    (rangeTest operand lower upper negated).OnlyWords P := by
  unfold rangeTest
  extract_lets keyword terms
  have hkeyword : (Fragment.ofText keyword).Balanced ∧ (Fragment.ofText keyword).EndsWord P
      ∧ (Fragment.ofText keyword).BeginsApart := by
    cases negated <;> exact ⟨by decide, hP.endsWord (by decide), by decide⟩
  have hterms : ∀ term ∈ terms, term.Balanced ∧ term.OnlyWords P := by
    refine List.forall_mem_map.2 fun p hp => ?_
    obtain ⟨hcolumn, hbounds⟩ := List.of_mem_zip hp
    obtain ⟨hlo, hhi⟩ := List.of_mem_zip hbounds
    have hcolumn := ho _ hcolumn
    have hlo := hl _ hlo
    have hhi := hu _ hhi
    constructor
    · have hfirst := (hcolumn.balanced.append hkeyword.1).append hlo.balanced
      exact (hfirst.append (by decide)).append hhi.balanced
    · have hfirst :=
        (hcolumn.onlyWords h.1).between hkeyword.2.1 hkeyword.2.2 (hlo.onlyWords h.2.1)
      exact hfirst.between (hP.endsWord (by decide)) (by decide) (hhi.onlyWords h.2.2)
  clear_value terms
  split
  next term => exact (hterms term (List.mem_singleton_self _)).2
  · refine (Fragment.EndsWord.parenthesized (.join ?_ fun f hf => (hterms f hf).1)).onlyWords
    cases negated <;> decide

end

/-! ## Forms -/

/-- In a node and below it names are plain, and those outside of brackets and quotes are words that
`P` admits. -/
structure Node.Proper (P : List Char → Bool) (n : Node) : Prop where
  plain : n.Plain
  wordsIn : n.WordsIn P

/-- The parts of a proper node are proper. -/
theorem Node.Proper.part {m n : Node} (h : n.Proper P) (hm : m ∈ n.parts) : m.Proper P :=
  ⟨h.plain.part hm, h.wordsIn.part hm⟩

/-- All that is lowered closes what it opens, and `P` admits the words outside in the columns of
expressions that permit it. -/
structure Setting.Wording (S : Setting) (P : List Char → Bool) (R : Results) : Prop where
  admissible : Admissible P
  functions : S.env.functions.WordsIn P
  fitting : S.Fitting .balanced R
  exp : ∀ {e columns}, R.exp e columns → (Node.exp e).Proper P → e.Permits P → AllOnly P columns

namespace Setting.Wording

variable {S : Setting} {R : Results} {lhs rhs : Exp}

/-- Columns are discreet in what their expression exposes. -/
theorem discreet (h : S.Wording P R) (hcolumns : R.exp e columns) (hproper : (Node.exp e).Proper P) :
    ∀ f ∈ columns, f.DiscreetIn P e := fun f hf =>
  ⟨(h.fitting.exp hcolumns hproper.plain.suits f hf).fits.balanced,
    fun hpermits => h.exp hcolumns hproper hpermits f hf⟩

/-- The only column of an operand is discreet. -/
theorem single (h : S.Wording P R) (hf : R.single e f) (hproper : (Node.exp e).Proper P) :
    f.DiscreetIn P e :=
  h.discreet hf hproper f (List.mem_singleton_self f)

/-- `NULL` in the place of a column is discreet. -/
theorem discreet_nullColumns (h : S.Wording P R) (parenthesized : Bool) (count : Nat) :
    ∀ f ∈ nullColumns parenthesized count, f.DiscreetIn P e := by
  intro f hf
  obtain ⟨hbalanced, honlyWords⟩ := onlyWords_nullColumns h.admissible parenthesized count f hf
  exact ⟨hbalanced, fun _ => honlyWords⟩

/-- Aligned columns are discreet. -/
theorem aligned (h : S.Wording P R) {pair : Columns × Columns} (hpair : R.aligned lhs rhs pair)
    (hl : (Node.exp lhs).Proper P) (hr : (Node.exp rhs).Proper P) :
    (∀ f ∈ pair.1, f.DiscreetIn P lhs) ∧ ∀ f ∈ pair.2, f.DiscreetIn P rhs := by
  obtain ⟨ls, rs, hls, hrs, halign⟩ := hpair
  obtain ⟨h1, h2⟩ := columns_of_align halign
  constructor
  · rcases h1 with h1 | h1 <;> rw [h1]
    · exact h.discreet hls hl
    · exact h.discreet_nullColumns _ _
  · rcases h2 with h2 | h2 <;> rw [h2]
    · exact h.discreet hrs hr
    · exact h.discreet_nullColumns _ _

/-- The bounds of a range are discreet. -/
theorem bound (h : S.Wording P R) {width : Nat} (hcolumns : R.bound e width columns)
    (hproper : (Node.exp e).Proper P) : ∀ f ∈ columns, f.DiscreetIn P e := by
  rcases hcolumns with hcolumns | ⟨-, rfl⟩
  · exact h.discreet hcolumns hproper
  · exact h.discreet_nullColumns _ _

/-- What stands last behind a keyword with blanks around it, or nothing. -/
theorem lastPart (h : S.Wording P R) (keyword : String)
    (hkeyword : (Fragment.ofText keyword).EndsWord isKeyword)
    (hapart : (Fragment.ofText keyword).BeginsApart) {exp : Option Exp} {last : Option Fragment}
    (hlast : Option.Rel R.single exp last) (hproper : ∀ e ∈ exp.toList, (Node.exp e).Proper P)
    (hpermits : ∀ e ∈ exp, e.Permits P) (hf : f.OnlyWords P) :
    (f ++ EntitySql.lastPart keyword last).OnlyWords P := by
  cases hlast with
  | none =>
    rw [EntitySql.lastPart, Fragment.OnlyWords, Fragment.symbols_append, Fragment.symbols_ofText,
      Sql.textSymbols_empty, List.append_nil]
    exact hf
  | some hg =>
    have hg := (h.single hg (hproper _ (List.mem_singleton_self _))).onlyWords (hpermits _ rfl)
    obtain ⟨hwords, hbegins⟩ := onlyWords_keyword keyword (h.admissible.endsWord hkeyword) hapart hg
    exact hf.append hwords hbegins

/-- The names of a parameter are words. -/
theorem parameter (h : S.Wording P R) {p : Parameter} {names : List String}
    (hnames : S.orderly → names = p.nativeNames) (hword : p.Worded) :
    AllOnly P (names.map Fragment.ofText) := by
  rw [hnames (h.fitting.orderly trivial)]
  refine List.forall_mem_map.2 fun x hx => .ofText ?_
  obtain ⟨column, -, rfl⟩ := List.mem_map.1 hx
  exact (isWord_nativeName h.admissible (isWordChar_stem hword) column).onlyWords

/-- The columns of a property have their names in brackets. -/
theorem property (h : S.Wording P R) {p : PropertyName} (hcolumns : p.Form S columns)
    (hnames : ∀ x ∈ p.identifiers, Bracketable x) : AllOnly P columns := by
  have halias : Bracketable p.aliasName := hnames _ (List.mem_cons_self ..)
  cases hcolumns with
  | derived htarget =>
    rw [PropertyName.identifiers, htarget] at hnames
    refine List.forall_mem_map.2 fun x hx => .ofText ?_
    exact (Sql.endsWord_qualified halias (hnames x (List.mem_cons_of_mem _ hx))).onlyWords
  | ofClass htarget hmap =>
    have hmem := Catalog.mem_maps_of_classMap? (Catalog.classMap_eq_ok.1 hmap)
    have hcatalog : S.env.catalog.Plain := (h.fitting.env trivial).catalog
    refine List.forall_mem_map.2 fun column hcolumn => .ofText ?_
    exact onlyWords_propertyColumn h.admissible halias fun x hx =>
      hcatalog.column hmem (List.mem_of_mem_filter hcolumn) hx

/-- Arithmetic has the words of both its sides, unless it is in parentheses. -/
theorem arithmetic (h : S.Wording P R) {op : ArithmeticOperator} {parenthesized : Bool}
    {pair : Columns × Columns} (hl : ∀ f ∈ pair.1, f.DiscreetIn P lhs)
    (hr : ∀ f ∈ pair.2, f.DiscreetIn P rhs)
    (hpermits : parenthesized = false → lhs.Permits P ∧ rhs.Permits P) :
    AllOnly P (List.zipWith (fun (l r : Fragment) =>
      (l ++ (" " ++ op.sql ++ " ") ++ r).parenthesizedIf parenthesized) pair.1 pair.2) := by
  have hop : Fragment.EndsWord P (" " ++ op.sql ++ " ") :=
    h.admissible.endsWord (by cases op <;> decide)
  have hapart : Fragment.BeginsApart (" " ++ op.sql ++ " ") := by cases op <;> decide
  have hbalanced : Fragment.Balanced (" " ++ op.sql ++ " ") := by cases op <;> decide
  rw [← List.map_uncurry_zip_eq_zipWith]
  refine List.forall_mem_map.2 fun q hq => ?_
  have hleft := hl _ (List.of_mem_zip hq).1
  have hright := hr _ (List.of_mem_zip hq).2
  refine .parenthesizedIf ((hleft.balanced.append hbalanced).append hright.balanced)
    fun hgroup => ?_
  obtain ⟨hlhs, hrhs⟩ := hpermits hgroup
  exact (hleft.onlyWords hlhs).between hop hapart (hright.onlyWords hrhs)

/-- A branch has the words of its condition and its value. -/
theorem caseBranch (h : S.Wording P R) {branch : CaseBranch Exp} (hf : branch.Form R f)
    (hproper : ∀ e ∈ branch.exps, (Node.exp e).Proper P)
    (hpermits : branch.condition.Permits P ∧ branch.value.Permits P) :
    f.OnlyWords P ∧ f.BeginsApart := by
  obtain ⟨c, v, hc, hv, rfl⟩ := hf
  have hc := (h.single hc (hproper _ (by simp [CaseBranch.exps]))).onlyWords hpermits.1
  have hv := (h.single hv (hproper _ (by simp [CaseBranch.exps]))).onlyWords hpermits.2
  have hwhen := onlyWords_keyword " WHEN " (h.admissible.endsWord (by decide)) (by decide) hc
  exact ⟨hwhen.1.between (h.admissible.endsWord (by decide)) (by decide) hv,
    hwhen.2.append.append⟩

/-- A case has the words of its branches. -/
theorem case (h : S.Wording P R) {branches : List (CaseBranch Exp)} {otherwise : Option Exp}
    {fs : List Fragment} {last : Option Fragment}
    (hbranches : List.Forall₂ (CaseBranch.Form R) branches fs)
    (hotherwise : Option.Rel R.single otherwise last)
    (hproper : ∀ e ∈ branches.flatMap (·.exps) ++ otherwise.toList, (Node.exp e).Proper P)
    (hpermits : ∀ branch ∈ branches, branch.condition.Permits P ∧ branch.value.Permits P)
    (hlast : ∀ e ∈ otherwise, e.Permits P) :
    Fragment.OnlyWords P
      ("CASE" ++ Fragment.join "" fs ++ EntitySql.lastPart " ELSE " last ++ " END") := by
  have hfs := forall_of_forall₂ hbranches fun branch hbranch _ hf =>
    h.caseBranch hf (fun e he => hproper e (List.mem_append_left _
      (List.mem_flatMap.2 ⟨branch, hbranch, he⟩))) (hpermits branch hbranch)
  have hstart : Fragment.OnlyWords P ("CASE" ++ Fragment.join "" fs) :=
    .append_join (h.admissible.onlyWords (by decide)) hfs
  have hbody := h.lastPart " ELSE " (by decide) (by decide) hotherwise
    (fun e he => hproper e (List.mem_append_right _ he)) hlast hstart
  exact hbody.append (h.admissible.onlyWords (by decide)) (by decide)

/-- Whether a conversion encloses its operand depends on the type. -/
theorem cast (h : S.Wording P R) {operand : Exp} {type : PrimitiveType} {target : ValueType}
    (htype : target.primitive? = some type) (hcolumns : ∀ f ∈ columns, f.DiscreetIn P operand)
    (hpermits : (Exp.cast operand target).Permits P) :
    AllOnly P (columns.map fun column => castColumn column type) := by
  rw [Exp.Permits, Exp.exposesOr, htype] at hpermits
  refine List.forall_mem_map.2 fun f hf => ?_
  refine onlyWords_castColumn h.admissible (hcolumns f hf).balanced fun htype =>
    (hcolumns f hf).onlyWords ?_
  simpa [Exp.Permits, htype] using hpermits

/-- A pattern match has the words of its operands. -/
theorem like (h : S.Wording P R) {escape : Option Exp} {negated : Bool} {g : Fragment}
    {last : Option Fragment} (hf : f.OnlyWords P) (hg : g.OnlyWords P)
    (hescape : Option.Rel R.single escape last)
    (hproper : ∀ e ∈ escape.toList, (Node.exp e).Proper P) (hpermits : ∀ e ∈ escape, e.Permits P) :
    Fragment.OnlyWords P (f ++ (if negated then " NOT LIKE " else " LIKE ") ++ g
      ++ EntitySql.lastPart " ESCAPE " last) := by
  have hkeyword : (Fragment.ofText (if negated then " NOT LIKE " else " LIKE ")).EndsWord P
      ∧ (Fragment.ofText (if negated then " NOT LIKE " else " LIKE ")).BeginsApart := by
    cases negated <;> exact ⟨h.admissible.endsWord (by decide), by decide⟩
  exact h.lastPart " ESCAPE " (by decide) (by decide) hescape hproper hpermits
    (hf.between hkeyword.1 hkeyword.2 hg)

/-- `P` admits the words outside of an expression that permits it. -/
theorem expForm (h : S.Wording P R) (hcolumns : Exp.Form S R e columns)
    (hproper : (Node.exp e).Proper P) (hpermits : e.Permits P) : AllOnly P columns := by
  have hP := h.admissible
  have hword := (Node.wordsIn_iff.1 hproper.wordsIn).1
  by_cases henclosed : e.isEnclosed = true
  · exact onlyWords_enclosed hP h.fitting h.functions hcolumns hproper.plain hword henclosed
  have hvocabulary := hproper.plain.vocabulary
  have hexps (exps : List Exp) (hparts : (Node.exp e).parts = exps.map .exp) :
      ∀ e ∈ exps, (Node.exp e).Proper P :=
    fun e he => hproper.part (hparts ▸ List.mem_map_of_mem he)
  cases hcolumns with
  | null => exact fun f hf => (onlyWords_nullColumns hP _ _ f hf).2
  | @literal l =>
    have hvalue := Fitting.literalValue (S := S) (p := .balanced) fun x hx _ =>
      hvocabulary.texts x hx
    exact allOnly_singleton.2 (.parenthesizedIf hvalue.fits.balanced fun _ =>
      onlyWords_literal hP hvocabulary.texts)
  | parameter hnames => exact h.parameter hnames hword
  | property hcolumns => exact h.property hcolumns hvocabulary.identifiers
  | enumerator => exact allOnly_singleton.2 (onlyWords_literal hP hvocabulary.texts)
  | castNull => exact fun f hf => (onlyWords_nullColumns hP _ _ f hf).2
  | @castSame operand target _ htype hcolumns =>
    have hoperand := h.discreet hcolumns (hproper.part (List.mem_cons_self ..))
    rw [Exp.Permits, Exp.exposesOr, htype] at hpermits
    exact fun f hf => (hoperand f hf).onlyWords (by simpa [Exp.Permits] using hpermits)
  | cast htype hcolumns =>
    exact h.cast htype (h.discreet hcolumns (hproper.part (List.mem_cons_self ..))) hpermits
  | @arithmetic lhs rhs _ _ parenthesized _ hpair =>
    obtain ⟨hl, hr⟩ := h.aligned hpair (hexps [lhs, rhs] rfl lhs (by simp))
      (hexps [lhs, rhs] rfl rhs (by simp))
    rw [Exp.Permits, Exp.exposesOr] at hpermits
    refine h.arithmetic hl hr fun hgroup => ?_
    simpa [Exp.Permits, hgroup, or_imp] using hpermits
  | @sign op _ _ _ hcolumns =>
    have hoperand := h.discreet hcolumns (hproper.part (List.mem_cons_self ..))
    have hop : (Fragment.ofText op.sql).EndsWord P := hP.endsWord (by cases op <;> decide)
    rw [Exp.Permits, Exp.exposesOr] at hpermits
    exact List.forall_mem_map.2 fun f hf =>
      hop.append_onlyWords ((hoperand f hf).onlyWords hpermits)
  | case hbranches hotherwise =>
    rw [Exp.Permits, Exp.exposesOr, Bool.or_eq_true, or_imp] at hpermits
    exact allOnly_singleton.2 (h.case hbranches hotherwise (hexps _ rfl)
      (permits_branches hpermits.1) (permits_option hpermits.2))
  | @navigation value id relationship declared hid hrelationship =>
    obtain ⟨property, idExp, relationshipExp, aliasName⟩ := value
    have hall := hexps _ rfl
    rw [Exp.Permits, Exp.exposesOr, Bool.or_eq_true, or_imp] at hpermits
    have hid := (h.single hid (hall _ (List.mem_cons_self ..))).onlyWords hpermits.1
    refine List.forall_mem_cons.2 ⟨hid, allOnly_singleton.2 ?_⟩
    cases hrelationship with
    | none => exact .ofText (Sql.onlyWords_of_numeric hP.numeral (Sql.numeric_toString_nat _))
    | some hr =>
      exact (h.single hr (hall _ (by simp))).onlyWords (permits_option hpermits.2 _ rfl)
  | @typeTest lhs _ entries parenthesized f negation filter hf hnegation =>
    have hf := h.single hf (hproper.part (List.mem_cons_self ..))
    obtain ⟨hbalanced, hends, hapart⟩ := separates_typeFilter hP hnegation filter
    rw [Exp.Permits, Exp.exposesOr] at hpermits
    refine allOnly_singleton.2 (.parenthesizedIf (hf.balanced.append hbalanced) fun hgroup => ?_)
    have hlhs : lhs.Permits P := fun hexposes => hpermits (by simp [hgroup, hexposes])
    exact ((hf.onlyWords hlhs).append_endsWord hends hapart).onlyWords
  | @boolean lhs rhs op parenthesized f g hl hr =>
    have hl := h.single hl (hexps [lhs, rhs] rfl lhs (by simp))
    have hr := h.single hr (hexps [lhs, rhs] rfl rhs (by simp))
    rw [Exp.Permits, Exp.exposesOr] at hpermits
    refine allOnly_singleton.2 (.parenthesizedIf (balanced_binary op hl.balanced hr.balanced)
      fun hgroup => ?_)
    have hall : (op = .or → P "OR".toList = true) ∧ lhs.Permits P ∧ rhs.Permits P := by
      simpa [Exp.Permits, hgroup, or_imp, and_assoc] using hpermits
    exact onlyWords_binary hP hall.1 (hl.onlyWords hall.2.1) (hr.onlyWords hall.2.2)
  | @compound lhs rhs op parenthesized pair hpair =>
    obtain ⟨hl, hr⟩ := h.aligned hpair (hexps [lhs, rhs] rfl lhs (by simp))
      (hexps [lhs, rhs] rfl rhs (by simp))
    rw [Exp.Permits, Exp.exposesOr] at hpermits
    refine allOnly_singleton.2 (onlyWords_compound hP hl hr fun hgroup => ?_)
    simpa [Exp.Permits, hgroup, or_imp, and_assoc] using hpermits
  | @not operand parenthesized f hf =>
    have hf := h.single hf (hproper.part (List.mem_cons_self ..))
    rw [Exp.Permits, Exp.exposesOr] at hpermits
    refine allOnly_singleton.2 (.parenthesizedIf (.append (by decide) hf.balanced) fun hgroup => ?_)
    have hoperand : operand.Permits P := fun hexposes => hpermits (by simp [hgroup, hexposes])
    exact Fragment.EndsWord.append_onlyWords (hP.endsWord (by decide)) (hf.onlyWords hoperand)
  | @between operand lower upper _ _ _ _ hcolumns hlo hhi =>
    have hall := hexps [operand, lower, upper] rfl
    rw [Exp.Permits, Exp.exposesOr] at hpermits
    refine allOnly_singleton.2 (onlyWords_rangeTest hP (h.discreet hcolumns (hall _ (by simp)))
      (h.bound hlo (hall _ (by simp))) (h.bound hhi (hall _ (by simp))) ?_)
    simpa [Exp.Permits, or_imp, and_assoc] using hpermits
  | @like operand pattern escape _ _ _ _ hf hg hescape =>
    have hall := hexps _ rfl
    rw [Exp.Permits, Exp.exposesOr, Bool.or_eq_true, or_imp, Bool.or_eq_true, or_imp] at hpermits
    exact allOnly_singleton.2 (h.like
      ((h.single hf (hall _ (by simp))).onlyWords hpermits.1.1)
      ((h.single hg (hall _ (by simp))).onlyWords hpermits.1.2) hescape
      (fun e he => hall e (by simp [Option.mem_toList.1 he])) (permits_option hpermits.2))
  | call | iif | extractProperty | extractInstance | subquery | list | window | quantified
  | «exists» => exact absurd rfl henclosed

end Setting.Wording

/-! ## Runs -/

namespace Setting

variable {S : Setting}

/-- What is known of results: they fit, and `P` admits the words outside in the columns of
expressions that permit it. -/
def wording (S : Setting) (P : List Char → Bool) : Results where
  exp e columns := (S.fitting .balanced).exp e columns
    ∧ ((Node.exp e).Proper P → e.Permits P → AllOnly P columns)
  source := (S.fitting .balanced).source
  core := (S.fitting .balanced).core
  select := (S.fitting .balanced).select

/-- What is known of the words holds by its own definition. -/
theorem wording_wording (hP : Admissible P) (henv : S.env.Plain)
    (hfunctions : S.env.functions.WordsIn P) (horderly : S.orderly) : S.Wording P (S.wording P) :=
  ⟨hP, hfunctions, ⟨fun _ => henv, fun _ => horderly, (·.1), id, id, id⟩, (·.2)⟩

/-- `P` admits the words outside of a whole if it does so for its parts. -/
theorem closed_wording (hP : Admissible P) (henv : S.env.Plain)
    (hfunctions : S.env.functions.WordsIn P) (horderly : S.orderly) :
    (S.wording P).Closed S :=
  have h := wording_wording hP henv hfunctions horderly
  ⟨fun hcolumns => ⟨h.fitting.expForm hcolumns, h.expForm hcolumns⟩, h.fitting.sourceForm,
    h.fitting.coreForm, h.fitting.selectForm⟩

end Setting

/-- No anchor waits for a select, and each parameter has the database names that were made for
it. -/
structure State.Orderly (s : State) : Prop where
  pending : s.pending = none
  bound : s.parameters.BoundBy fun _ => True

/-- Nothing is pending or bound at the start. -/
theorem State.orderly_initial : State.initial.Orderly :=
  ⟨rfl, List.forall_mem_nil _⟩

end EntitySql
