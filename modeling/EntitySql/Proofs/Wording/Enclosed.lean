import EntitySql.Proofs.Fitting.Select
import EntitySql.Proofs.Sql.Outside

/-!
# Values with their operands in parentheses

Expressions are written with keywords, numbers, the database names of parameters and the names of
functions, apart from what stands in brackets and quotes. A predicate on words is `Admissible` if it
admits all of these but the names of functions, and what is asked of those is `WordsIn`.

Calls, window functions, choices, lists and subqueries are written as words with parentheses behind
them, and all their operands stand in these. So only admitted words stand outside in them, whatever
their operands are (`Setting.onlyWords_enclosed`).
-/

namespace EntitySql

open Lowering
open Sql (AnchorTable CapturedSelect Columns Fits Fragment IsWord Item Numeric Promise isWordChar
  quoted)

/-! ## Words -/

/-- The words that expressions are written with outside of brackets and quotes, apart from `OR`. -/
def keywords : List String :=
  ["0", "1", "AND", "BETWEEN", "CASE", "CAST", "ELSE", "END", "ESCAPE", "EXISTS", "FALSE", "FILTER",
    "IIF", "IN", "IS", "JULIANDAY", "LIKE", "MATCH", "NOT", "NULL", "OVER", "THEN", "TRUE", "WHEN",
    "extract_inst", "extract_prop"]

/-- Whether a word is a keyword. -/
def isKeyword (word : List Char) : Bool :=
  keywords.any fun keyword => keyword.toList = word

/-- The predicate admits keywords, the words in numbers and the database names of parameters. -/
structure Admissible (P : List Char → Bool) : Prop where
  keyword : ∀ w, isKeyword w = true → P w = true
  numeral : ∀ w, Numeric w → P w = true
  parameter : ∀ w, P (':' :: w) = true

namespace Admissible

variable {P : List Char → Bool} {f : Fragment}

/-- Any admissible set has the keywords. -/
theorem onlyWords (hP : Admissible P) (h : f.OnlyWords isKeyword) : f.OnlyWords P :=
  Sql.OnlyWords.mono hP.keyword h

/-- Any admissible set has the keywords. -/
theorem endsWord (hP : Admissible P) (h : f.EndsWord isKeyword) : f.EndsWord P :=
  Sql.Outside.pass_mono hP.keyword h

/-- Any admissible set has the keywords. -/
theorem opens (hP : Admissible P) (h : f.Opens isKeyword) : f.Opens P :=
  Sql.Outside.pass_mono hP.keyword h

/-- Any admissible set has the keywords. -/
theorem closes (hP : Admissible P) (h : f.Closes isKeyword) : f.Closes P :=
  Sql.Outside.pass_mono hP.keyword h

end Admissible

theorem toLower_of_isDigit {c : Char} (h : c.isDigit = true) : c.toLower = c := by
  unfold Char.toLower
  rw [dif_neg]
  rintro ⟨hlower, -⟩
  simp only [Char.isDigit, Bool.and_eq_true, decide_eq_true_eq] at h
  exact absurd (UInt32.le_trans hlower h.2) (by decide)

/-- A word with an `O` is no word in a number. -/
theorem isWord_eq_false_of_numeric {name : String} (hname : 'o' ∈ Text.folded name)
    {w : List Char} (hw : Numeric w) : (Item.word w).isWord name = false := by
  refine decide_eq_false fun heq => ?_
  rw [← heq] at hname
  obtain ⟨c, hc, hlower⟩ := List.mem_map.1 hname
  rcases hw c hc with hdigit | hmem
  · rw [toLower_of_isDigit hdigit] at hlower
    rw [hlower] at hdigit
    exact absurd hdigit (by decide)
  · simp only [List.mem_cons, List.not_mem_nil, or_false] at hmem
    rcases hmem with rfl | rfl | rfl | rfl | rfl | rfl | rfl | rfl <;>
      exact absurd hlower (by decide)

/-- The database name of a parameter begins with a colon. -/
theorem isWord_eq_false_of_colon {name : String} (hname : (Text.folded name).head? ≠ some ':')
    (w : List Char) : (Item.word (':' :: w)).isWord name = false := by
  refine decide_eq_false fun heq => hname ?_
  rw [← heq]
  rfl

/-- A predicate that rules out one word is admissible if the word is no keyword, has an `O` and does
not begin with a colon. -/
theorem admissible_isNotWord {name : String}
    (hkeyword : ∀ keyword ∈ keywords, (Item.word keyword.toList).isWord name = false)
    (hnumeral : 'o' ∈ Text.folded name) (hparameter : (Text.folded name).head? ≠ some ':') :
    Admissible fun w => !(Item.word w).isWord name where
  keyword w hw := by
    obtain ⟨keyword, hmem, heq⟩ := List.any_eq_true.1 hw
    obtain rfl := of_decide_eq_true heq
    rw [hkeyword keyword hmem]
    rfl
  numeral w hw := by
    rw [isWord_eq_false_of_numeric hnumeral hw]
    rfl
  parameter w := by
    rw [isWord_eq_false_of_colon hparameter w]
    rfl

/-- Words that two sets admit are admitted by both. -/
theorem Admissible.and {P Q : List Char → Bool} (hP : Admissible P) (hQ : Admissible Q) :
    Admissible fun w => P w && Q w where
  keyword w hw := Bool.and_eq_true_iff.2 ⟨hP.keyword w hw, hQ.keyword w hw⟩
  numeral w hw := Bool.and_eq_true_iff.2 ⟨hP.numeral w hw, hQ.numeral w hw⟩
  parameter w := Bool.and_eq_true_iff.2 ⟨hP.parameter w, hQ.parameter w⟩

/-- The names of functions are single words, which `P` admits. -/
def Registry.WordsIn (P : List Char → Bool) (registry : Registry) : Prop :=
  ∀ function ∈ registry.functions, ∀ x ∈ function.words, IsWord P x

instance Registry.decidableWordsIn (P : List Char → Bool) (registry : Registry) :
    Decidable (registry.WordsIn P) :=
  inferInstanceAs (Decidable (∀ function ∈ registry.functions, ∀ x ∈ function.words, _))

/-- The characters of the name can be part of a word. -/
def Parameter.Worded (p : Parameter) : Prop :=
  ∀ x ∈ p.name, ∀ c ∈ x.toList, isWordChar c = true

/-- What the node writes outside of brackets and quotes is a single word that `P` admits, or part of
one. -/
def Node.HasWordIn (P : List Char → Bool) : Node → Prop
  | .exp (.parameter p) => p.Worded
  | .exp (.call c) | .exp (.window c _ _) => IsWord P c.name
  | _ => True

/-- The names outside of brackets and quotes are single words that `P` admits, in a node and below
it. -/
def Node.WordsIn (P : List Char → Bool) (n : Node) : Prop :=
  ∀ m : Node, m.Within n → m.HasWordIn P

variable {P : List Char → Bool}

/-- The words of a part are words of the whole. -/
theorem Node.WordsIn.part {m n : Node} (h : n.WordsIn P) (hm : m ∈ n.parts) : m.WordsIn P :=
  fun k hk => h k (.part hm hk)

/-- The words of a node are its own one and those of its parts. -/
theorem Node.wordsIn_iff {n : Node} : n.WordsIn P ↔ n.HasWordIn P ∧ ∀ m ∈ n.parts, m.WordsIn P :=
  forall_within_iff

/-- Whether the operands of the expression are written in parentheses. -/
def Exp.isEnclosed : Exp → Bool
  | .call _ | .iif .. | .extractProperty .. | .extractInstance _ | .subquery _ | .list _
  | .typeList _ | .window .. | .quantified .. | .subqueryTest .. => true
  | .literal _ | .parameter _ | .property _ | .enumerator .. | .cast .. | .arithmetic ..
  | .sign .. | .case .. | .navigation _ | .boolean .. | .not .. | .between .. | .like .. => false

/-! ## Columns -/

/-- `P` admits the words outside in the columns. -/
def AllOnly (P : List Char → Bool) (columns : Columns) : Prop :=
  ∀ f ∈ columns, f.OnlyWords P

theorem allOnly_singleton {f : Fragment} : AllOnly P [f] ↔ f.OnlyWords P :=
  List.forall_mem_singleton

/-- A word with parentheses behind it. -/
theorem endsWord_keyword {keyword : String} {f : Fragment}
    (hkeyword : (Fragment.ofText keyword).OnlyWords P) (hf : f.Balanced) :
    Fragment.EndsWord P (keyword ++ f.parenthesized) :=
  hkeyword.append_endsWord (.parenthesized hf) Fragment.beginsApart_parenthesized

/-! ## What fits -/

/-- A text that fits closes what it opens, anchors included. -/
theorem Sql.Fits.balanced {t : AnchorTable} {f : Fragment} (h : Fits t .balanced 0 0 f) :
    f.Balanced :=
  h.admits trivial

/-- Plain names suit the promise that parentheses close. -/
theorem Node.Plain.suits {n : Node} (h : n.Plain) : n.Suits .balanced :=
  fun _ => h

/-- `P` admits the words outside in a call, also if a window stands in the middle of it. -/
structure Lowering.LoweredCall.Only (P : List Char → Bool) (c : LoweredCall) : Prop where
  call : c.call.EndsWord P
  suffix : (Fragment.ofText c.suffix).OnlyWords P

/-- A call with its suffix has the words of both. -/
theorem Lowering.LoweredCall.Only.sql {c : LoweredCall} (h : c.Only P) : c.sql.OnlyWords P :=
  h.call.append_onlyWords h.suffix

namespace Setting

variable {S : Setting} {R : Results} {e : Exp} {columns : Columns} {f : Fragment}

/-- The columns that identify an instance close what they open. -/
theorem balanced_instanceArguments {aliasName : String} (h : Sql.Bracketable aliasName) :
    (Fragment.ofText (instanceArguments aliasName)).Balanced := by
  have hadmits := Fitting.admits_instanceArguments (p := .balanced) fun _ => h
  rw [Fragment.Balanced, Fragment.symbols_ofText]
  exact hadmits trivial

/-- A window is in parentheses or a name in brackets, so its words are enclosed. -/
theorem endsWord_windowOver (h : S.Fitting .balanced R) {overWindow : WindowOver Exp}
    (hf : overWindow.Form R f) (hnames : ∀ e ∈ overWindow.exps, (Node.exp e).Plain)
    (hidentifiers : ∀ x ∈ overWindow.identifiers, Sql.Bracketable x) : f.EndsWord P := by
  cases hf with
  | spec hspec =>
    exact .parenthesized (h.windowSpec hspec (fun e he => (hnames e he).suits)
      fun x hx _ => hidentifiers x hx).balanced
  | name name =>
    rw [Fragment.EndsWord, Fragment.symbols_ofText]
    exact Sql.endsWord_bracketed (hidentifiers name (List.mem_singleton_self _))

section

variable (hP : Admissible P)

include hP

/-! ## Choices and parts of instances -/

/-- The arguments of an inline condition are enclosed. -/
theorem endsWord_iif {c t a : Fragment} (hc : c.Balanced) (ht : t.Balanced) (ha : a.Balanced) :
    Fragment.EndsWord P ("IIF(" ++ c ++ "," ++ t ++ "," ++ a ++ ")") := by
  have hopen : Fragment.Opens P ("IIF(" ++ c ++ ",") :=
    .append (.append (hP.opens (by decide)) hc) (by decide)
  have hargs : Fragment.Opens P ("IIF(" ++ c ++ "," ++ t ++ "," ++ a) :=
    ((hopen.append ht).append (by decide)).append ha
  exact hargs.close (hP.closes (by decide))

/-- A compared subquery is enclosed. -/
theorem endsWord_quantified (quantifier : Quantifier) (hf : f.Balanced) :
    Fragment.EndsWord P (quantifier.keyword ++ f.parenthesized) := by
  refine endsWord_keyword (hP.onlyWords ?_) hf
  cases quantifier <;> decide

/-- An extracted property has its names in brackets and quotes. -/
theorem allOnly_extractProperty {aliasName access : String} (halias : Sql.Bracketable aliasName)
    (haccess : Sql.Unmarked access) : AllOnly P (extractProperty aliasName access) := by
  have harguments := balanced_instanceArguments halias
  have hquoted : (Fragment.ofText (quoted access)).Balanced := by
    rw [Fragment.Balanced, Fragment.symbols_ofText]
    exact Sql.shifts_quoted haccess
  have hopen : Fragment.Opens P ("extract_prop(" ++ instanceArguments aliasName ++ ",") :=
    .append (.append (hP.opens (by decide)) harguments) (by decide)
  exact allOnly_singleton.2 ((hopen.append hquoted).close (hP.closes (by decide))).onlyWords

/-- An extracted instance has its names in brackets. -/
theorem allOnly_extractInstance {aliasName : String} (halias : Sql.Bracketable aliasName) :
    AllOnly P (extractInstance aliasName) := by
  have harguments := balanced_instanceArguments halias
  have hopen : Fragment.Opens P ("extract_inst(" ++ instanceArguments aliasName) :=
    .append (hP.opens (by decide)) harguments
  exact allOnly_singleton.2 (hopen.close (hP.closes (by decide))).onlyWords

/-! ## Calls -/

/-- The name under which a function is written is a word that `P` admits. -/
theorem isWord_of_writtenAs {c : FunctionCall Exp} {name suffix : String}
    (hfunctions : S.env.functions.WordsIn P) (hword : IsWord P c.name)
    (hname : c.WrittenAs S.env.functions name suffix) :
    IsWord P name ∧ (Fragment.ofText suffix).OnlyWords P := by
  have hwords {function : FunctionDef} (hfind : S.env.functions.find? c.name = some function) :
      ∀ x ∈ function.words, IsWord P x :=
    hfunctions function (List.mem_of_find?_eq_some hfind)
  cases hname with
  | unknown => exact ⟨hword, hP.onlyWords (by decide)⟩
  | plain hfind => exact ⟨hwords hfind _ (List.mem_cons_self ..), hP.onlyWords (by decide)⟩
  | predicate hfind hform =>
    exact ⟨hwords hfind _ (by simp [FunctionDef.words, hform]), hP.onlyWords (by decide)⟩

/-- The only word of a call outside is its name. -/
theorem only_call (h : S.Fitting .balanced R) {c : FunctionCall Exp} {call : LoweredCall}
    (hfunctions : S.env.functions.WordsIn P) (hcall : c.Form S R call) (hword : IsWord P c.name)
    (hnames : ∀ e ∈ c.args, (Node.exp e).Plain) : call.Only P := by
  cases hcall with
  | @written name _ _ hname hargs =>
    obtain ⟨hname, hsuffix⟩ := isWord_of_writtenAs hP hfunctions hword hname
    have hargs := (h.callArguments hargs fun e he => (hnames e he).suits).balanced
    have hopen : Fragment.Opens P (Fragment.ofText name ++ Fragment.ofText "(") := by
      rw [Fragment.Opens, Fragment.symbols_append, Fragment.symbols_ofText,
        Fragment.symbols_ofText, ← Sql.textSymbols_append]
      exact hname.opens
    have hquantifier : (Fragment.ofText c.quantifier.sql).Balanced := by
      cases c.quantifier <;> decide
    exact ⟨((hopen.append hquantifier).append hargs).close (hP.closes (by decide)), hsuffix⟩
  | julianDay hfind =>
    have hname := hfunctions _ (List.mem_of_find?_eq_some hfind) _ (List.mem_cons_self ..)
    have hopen : Sql.Opens P (Sql.textSymbols "JULIANDAY(") :=
      Sql.Outside.pass_mono hP.keyword (by decide)
    have hnone : (Fragment.ofText "").OnlyWords isKeyword := by decide
    refine ⟨?_, hP.onlyWords hnone⟩
    rw [Fragment.EndsWord, Fragment.symbols_ofText, Sql.textSymbols_append,
      Sql.textSymbols_append]
    exact (hopen.append hname.shifts).close (Sql.Outside.pass_mono hP.keyword (by decide))

/-- The condition of a filter is enclosed. -/
theorem endsWord_filterPart {condition : Option Fragment} (h : ∀ f ∈ condition, f.Balanced) :
    (filterPart condition).EndsWord P := by
  cases condition with
  | none => exact hP.endsWord (by decide)
  | some f =>
    have hopen : Fragment.Opens P (" FILTER(WHERE " ++ f) :=
      .append (hP.opens (by decide)) (h f rfl)
    exact hopen.close (hP.closes (by decide))

/-! ## Expressions -/

/-- `P` admits the words outside of an expression with its operands in parentheses. -/
theorem onlyWords_enclosed (h : S.Fitting .balanced R) (hfunctions : S.env.functions.WordsIn P)
    (hcolumns : Exp.Form S R e columns) (hnames : (Node.exp e).Plain)
    (hword : (Node.exp e).HasWordIn P) (he : e.isEnclosed = true) : AllOnly P columns := by
  have hexps {exps : List Exp} (hparts : (Node.exp e).parts = exps.map .exp) :
      ∀ e ∈ exps, (Node.exp e).Plain :=
    fun e he => hnames.part (hparts ▸ List.mem_map_of_mem he)
  have hvocabulary := hnames.vocabulary
  cases hcolumns with
  | call hc => exact allOnly_singleton.2 (only_call hP h hfunctions hc hword (hexps rfl)).sql
  | iif hc ht ha =>
    have hpart (e : Exp) (f : Fragment) (hf : R.single e f) (he : (Node.exp e).Plain) :
        f.Balanced := (h.single_fits hf he.suits).balanced
    refine allOnly_singleton.2 (endsWord_iif hP (hpart _ _ hc ?_) (hpart _ _ ht ?_)
      (hpart _ _ ha ?_)).onlyWords
    all_goals exact hnames.part (by simp [Node.parts, Exp.parts])
  | extractProperty =>
    exact allOnly_extractProperty hP (hvocabulary.identifiers _ (List.mem_cons_self ..))
      (hvocabulary.texts _ (List.mem_cons_self ..))
  | extractInstance =>
    exact allOnly_extractInstance hP (hvocabulary.identifiers _ (List.mem_cons_self ..))
  | subquery hw =>
    have hf := h.subquery hw (hnames.part (List.mem_cons_self ..)).suits
    exact allOnly_singleton.2 (Fragment.EndsWord.parenthesized hf.balanced).onlyWords
  | list hvalues =>
    have hfs := h.singles hvalues fun e he => (hexps rfl e he).suits
    have hjoin : Fits S.final .balanced 0 0 (Fragment.join "," _) := .join (by decide) hfs
    exact allOnly_singleton.2 (Fragment.EndsWord.parenthesized hjoin.balanced).onlyWords
  | window hc hfilter hover =>
    have hall := hexps rfl
    simp only [List.mem_append, or_imp, forall_and] at hall
    have hcall := only_call hP h hfunctions hc hword hall.1.1
    have hfilter := h.single? hfilter fun e he => (hall.1.2 e he).suits
    have hover := endsWord_windowOver (P := P) h hover hall.2 hvocabulary.identifiers
    have hkeyword : Fragment.EndsWord P " OVER " := hP.endsWord (by decide)
    have hbefore := (hcall.call.append (endsWord_filterPart hP fun f hf =>
      (hfilter f hf).balanced)).append hkeyword
    exact allOnly_singleton.2 ((hbefore.append hover).append_onlyWords hcall.suffix)
  | quantified hoperand hw hcondition hid =>
    have hf := h.comparedSubquery hoperand hw hcondition hid hnames.suits
    exact allOnly_singleton.2 (endsWord_quantified hP _ hf.balanced).onlyWords
  | «exists» hw =>
    have hf := h.subquery hw (hnames.part (List.mem_cons_self ..)).suits
    exact allOnly_singleton.2 (endsWord_keyword (hP.onlyWords (by decide)) hf.balanced).onlyWords
  | null | literal | parameter | property | enumerator | castNull | castSame | cast | arithmetic
  | sign | case | navigation | typeTest | boolean | compound | not | between | like => cases he

end

end Setting

end EntitySql
