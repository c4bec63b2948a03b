import EntitySql.Proofs.Lists
import EntitySql.Proofs.Text.Bytes
import EntitySql.Schema.Table
import Mathlib.Data.List.Infix

/-!
# Columns and the paths of properties

A column belongs to the property at a path if its access string is the path or goes on with a dot
behind it. This is found out by bytes: the byte behind the path has to be the one of the dot, and
the text before it, cut off there, has to be the path. The cut is never inside of a character, as
that byte begins one (`exists_pos?_of_dot`), and letters of either case have the same size
(`utf8ByteSize_eq_of_sameName`), so a text that is the path in other letters ends at that byte too.
Seen as lists of names, the path is at the beginning of the access string
(`MappedColumn.belongsTo_iff_segments`).
-/

namespace EntitySql

namespace Text

/-! ## Names on a path -/

/-- The names on a path: the texts between its dots. -/
def segments (path : String) : List String :=
  (path.toList.splitOn '.').map String.ofList

theorem toLower_eq_dot {c : Char} : c.toLower = '.' ↔ c = '.' := by
  unfold Char.toLower
  split
  next h =>
    -- a capital letter is no dot, and neither is its small letter
    have hcode : 65 ≤ c.val.toNat ∧ c.val.toNat ≤ 90 := h
    constructor
    · intro hdot
      have hval : (c.val.toNat + 32) % 4294967296 = 46 := congrArg (·.val.toNat) hdot
      omega
    · rintro rfl
      exact absurd hcode.1 (by decide)
  next => exact Iff.rfl

/-- The root of a path is what stands before the first dot. -/
theorem folded_rootName (path : String) :
    folded (rootName path) = (folded path).takeWhile (· ≠ '.') := by
  have hdot : ((fun c : Char => decide (c ≠ '.')) ∘ Char.toLower) = fun c => decide (c ≠ '.') := by
    funext c
    simp only [Function.comp_apply, ne_eq, toLower_eq_dot]
  rw [folded, folded, rootName, String.toList_ofList, List.takeWhile_map, hdot]

theorem splitOn_map_toLower (cs : List Char) :
    (cs.map Char.toLower).splitOn '.' = (cs.splitOn '.').map (List.map Char.toLower) := by
  induction cs with
  | nil => rfl
  | cons c cs ih =>
    have hdot : (c.toLower == '.') = (c == '.') := by
      rw [Bool.eq_iff_iff, beq_iff_eq, beq_iff_eq, toLower_eq_dot]
    rw [List.map_cons, List.splitOn_cons_eq_if_modifyHead, List.splitOn_cons_eq_if_modifyHead, hdot,
      ih]
    split
    next => rfl
    next => cases cs.splitOn '.' <;> rfl

/-- Letter case does not matter for the segments of a path. -/
theorem map_folded_segments (path : String) :
    (segments path).map folded = (folded path).splitOn '.' := by
  rw [folded, splitOn_map_toLower, segments, List.map_map]
  refine List.map_congr_left fun cs _ => ?_
  rw [Function.comp_apply, folded, String.toList_ofList]

/-- The first segment is what stands before the first dot. -/
theorem exists_splitOn_eq (cs : List Char) :
    ∃ rest, cs.splitOn '.' = cs.takeWhile (· ≠ '.') :: rest := by
  induction cs with
  | nil => exact ⟨[], rfl⟩
  | cons c cs ih =>
    obtain ⟨rest, hrest⟩ := ih
    rw [List.splitOn_cons_eq_if_modifyHead, hrest, List.takeWhile_cons]
    by_cases hdot : c = '.'
    · exact ⟨cs.takeWhile (· ≠ '.') :: rest, by simp [hdot]⟩
    · exact ⟨rest, by simp [hdot]⟩

/-- The root of a path is the first name on it. -/
theorem exists_segments_eq (path : String) : ∃ rest, segments path = rootName path :: rest := by
  obtain ⟨rest, hrest⟩ := exists_splitOn_eq path.toList
  exact ⟨rest.map String.ofList, by rw [segments, hrest, List.map_cons, rootName]⟩

end Text

/-! ## The columns of a property -/

namespace MappedColumn

variable {column : MappedColumn} {path : String}

/-- The column says whether it belongs to a path, for every path. -/
theorem exists_belongsTo? (column : MappedColumn) (path : String) :
    ∃ answer, column.belongsTo? path = some answer ∧ (answer = true ↔
      Text.sameName column.access path = true
        ∨ ∃ stem rest, column.access = stem ++ "." ++ rest ∧ Text.sameName stem path = true) := by
  unfold belongsTo?
  by_cases hsame : Text.sameName column.access path = true
  · exact ⟨true, if_pos hsame, by simp [hsame]⟩
  -- a text with the path before one of its dots is longer, and has the dot right there
  have hbehind : ∀ stem rest, column.access = stem ++ "." ++ rest →
      Text.sameName stem path = true →
        path.utf8ByteSize < column.access.utf8ByteSize
          ∧ column.access.toByteArray[path.utf8ByteSize]? = some '.'.toUInt8 := by
    intro stem rest haccess hstem
    rw [← Text.utf8ByteSize_eq_of_sameName hstem, haccess]
    refine ⟨?_, Text.toByteArray_getElem?_append stem rest '.'⟩
    rw [String.utf8ByteSize_append, String.utf8ByteSize_append]
    have hdot : ".".utf8ByteSize = 1 := rfl
    omega
  by_cases hsize : column.access.utf8ByteSize ≤ path.utf8ByteSize
  · refine ⟨false, ?_, ?_⟩
    · simp only [if_neg hsame, if_pos hsize]; rfl
    · simp only [hsame, Bool.false_eq_true, false_or, false_iff]
      rintro ⟨stem, rest, haccess, hstem⟩
      exact absurd (hbehind stem rest haccess hstem).1 (Nat.not_lt.2 hsize)
  have hlt : path.utf8ByteSize < column.access.toByteArray.size := Nat.not_le.1 hsize
  have hsome := getElem?_pos column.access.toByteArray path.utf8ByteSize hlt
  simp only [if_neg hsame, if_neg hsize, hsome, bind, pure, Option.bind_some]
  by_cases hdot : column.access.toByteArray[path.utf8ByteSize] = '.'.toUInt8
  · obtain ⟨place, rest, hplace, hoffset, hcut⟩ := Text.exists_pos?_of_dot (hdot ▸ hsome)
    refine ⟨Text.sameName (column.access.sliceTo place).copy path, ?_, ?_⟩
    · rw [if_neg (not_not.2 hdot), hplace]
      rfl
    · rw [or_iff_right hsame]
      constructor
      · intro hstem
        exact ⟨_, rest, hcut, hstem⟩
      · rintro ⟨stem, rest', haccess, hstem⟩
        have hsplits : place.Splits stem ("." ++ rest') := by
          refine ⟨haccess.trans (String.append_assoc ..), String.Pos.Raw.ext ?_⟩
          rw [hoffset, ← Text.utf8ByteSize_eq_of_sameName hstem]
          rfl
        rwa [hsplits.eq_left place.splits] at hstem
  · refine ⟨false, if_pos hdot, ?_⟩
    simp only [hsame, Bool.false_eq_true, false_or, false_iff]
    rintro ⟨stem, rest, haccess, hstem⟩
    have hbyte := (hbehind stem rest haccess hstem).2
    rw [hsome] at hbyte
    exact hdot (Option.some.inj hbyte)

/-- The answer, in small letters: the path is the access string, or a dot follows behind it. -/
theorem belongsTo_iff : column.belongsTo path = true ↔
    Text.sameName column.access path = true
      ∨ Text.folded path ++ ['.'] <+: Text.folded column.access := by
  obtain ⟨answer, hanswer, hiff⟩ := exists_belongsTo? column path
  rw [belongsTo, hanswer, Option.getD_some, hiff]
  refine or_congr_right ⟨?_, ?_⟩
  · rintro ⟨stem, rest, haccess, hstem⟩
    refine ⟨Text.folded rest, ?_⟩
    rw [← Text.sameName_iff.1 hstem, haccess]
    simp [Text.folded]
  · rintro ⟨rest, hrest⟩
    obtain ⟨front, back, haccess, hfront, -⟩ := List.map_eq_append_iff.1 hrest.symm
    obtain ⟨stem, dot, rfl, hstem, hdot⟩ := List.map_eq_append_iff.1 hfront
    obtain ⟨c, rfl, hc⟩ := List.map_eq_singleton_iff.1 hdot
    obtain rfl := Text.toLower_eq_dot.1 hc
    refine ⟨String.ofList stem, String.ofList back, String.toList_injective ?_, ?_⟩
    · simp [haccess]
    · rw [Text.sameName_iff, Text.folded, String.toList_ofList, hstem]

/-- The columns of a property have the root of its path. -/
theorem folded_root (h : column.belongsTo path = true) :
    Text.folded column.root = Text.folded (Text.rootName path) := by
  rw [root, Text.folded_rootName, Text.folded_rootName]
  rcases belongsTo_iff.1 h with hsame | hbelow
  · rw [Text.sameName_iff.1 hsame]
  · obtain ⟨rest, hrest⟩ := hbelow
    rw [← hrest, List.append_assoc, List.takeWhile_append]
    split
    next hwhole =>
      rw [(List.takeWhile_sublist _).eq_of_length hwhole, List.singleton_append,
        List.takeWhile_cons_of_neg (by decide), List.append_nil]
    next => rfl

/-- A column belongs to a path if the names on the path are the first ones of its access string, in
whatever case. There is always an answer, and the columns of a path have its first name as root. -/
theorem belongsTo_iff_segments (column : MappedColumn) (path : String) :
    column.belongsTo? path = some (column.belongsTo path)
      ∧ (column.belongsTo path = true ↔
        (Text.segments path).map Text.folded <+: (Text.segments column.access).map Text.folded)
      ∧ (column.belongsTo path = true →
        ∃ first rest, Text.segments path = first :: rest
          ∧ Text.sameName column.root first = true) := by
  refine ⟨?_, ?_, ?_⟩
  · obtain ⟨answer, hanswer, -⟩ := exists_belongsTo? column path
    rw [belongsTo, hanswer, Option.getD_some]
  · rw [Text.map_folded_segments, Text.map_folded_segments, splitOn_isPrefix_iff,
      belongsTo_iff, Text.sameName_iff, eq_comm]
  · intro h
    obtain ⟨rest, hrest⟩ := Text.exists_segments_eq path
    exact ⟨_, rest, hrest, Text.sameName_iff.2 (folded_root h)⟩

end MappedColumn

end EntitySql
