import EntitySql.Text.Ascii
import Mathlib.Tactic.SplitIfs

/-!
# The bytes of a text

A reader of bytes finds the marks of the ASCII range where a reader of characters does, since their
bytes are in no other character (`Text.eq_of_toUInt8_mem`). So a text can be cut where the byte of a
dot stands (`Text.exists_pos?_of_dot`).
-/

namespace EntitySql.Text

/-- The bytes of a text in UTF-8. -/
def bytes (text : String) : List UInt8 :=
  text.toByteArray.data.toList

theorem bytes_eq_flatMap (text : String) :
    bytes text = text.toList.flatMap String.utf8EncodeChar := by
  rw [bytes, ← String.utf8Encode_toList, List.utf8Encode, List.toList_data_toByteArray]

/-- The bytes of texts in a row are those of the texts. -/
theorem bytes_append (a b : String) : bytes (a ++ b) = bytes a ++ bytes b := by
  rw [bytes_eq_flatMap, String.toList_append, List.flatMap_append, ← bytes_eq_flatMap,
    ← bytes_eq_flatMap]

theorem bytes_inj {a b : String} : bytes a = bytes b ↔ a = b := by
  rw [bytes, bytes, Array.toList_inj, ← ByteArray.ext_iff, String.toByteArray_inj]

/-- A character of seven bits is one byte. -/
theorem utf8EncodeChar_of_ascii {c : Char} (h : c.toNat ≤ 127) :
    String.utf8EncodeChar c = [c.toUInt8] :=
  String.utf8EncodeChar_eq_singleton (Char.utf8Size_eq_one_iff.2 h)

/-- All bytes of a longer character are above the ASCII range. -/
theorem le_of_mem_utf8EncodeChar {c : Char} (hc : 127 < c.toNat) :
    ∀ b ∈ String.utf8EncodeChar c, 128 ≤ b.toNat := by
  have hlong : ¬c.val.toNat ≤ 127 := Nat.not_le.2 hc
  simp only [String.utf8EncodeChar, if_neg hlong]
  split_ifs
  all_goals
    simp only [List.mem_cons, List.not_mem_nil, or_false, forall_eq_or_imp, forall_eq,
      UInt8.toNat_ofNat']
    omega

/-- The byte of a character in the ASCII range is in no other character. -/
theorem eq_of_toUInt8_mem {c d : Char} (hd : d.toNat ≤ 127)
    (h : d.toUInt8 ∈ String.utf8EncodeChar c) : c = d := by
  have hbyte : ∀ a : Char, a.toUInt8.toNat = a.toNat % 256 := fun a => UInt32.toNat_toUInt8 a.val
  have hdbyte := hbyte d
  by_cases hc : c.toNat ≤ 127
  · rw [utf8EncodeChar_of_ascii hc, List.mem_singleton] at h
    rw [h, hbyte c] at hdbyte
    exact Char.toNat_inj.1 (by omega)
  · have habove := le_of_mem_utf8EncodeChar (Nat.not_le.1 hc) _ h
    omega

/-- A text begins with the byte of a character in the ASCII range if it does with the character. -/
theorem head?_bytes_iff {d : Char} (hd : d.toNat ≤ 127) (text : String) :
    (bytes text).head? = some d.toUInt8 ↔ text.toList.head? = some d := by
  rw [bytes_eq_flatMap]
  cases text.toList with
  | nil => simp
  | cons c cs =>
    obtain ⟨first, more, hc⟩ := List.exists_cons_of_ne_nil (String.utf8EncodeChar_ne_nil (c := c))
    rw [List.flatMap_cons, hc, List.cons_append, List.head?_cons, List.head?_cons, Option.some_inj,
      Option.some_inj]
    constructor
    · rintro rfl
      exact eq_of_toUInt8_mem hd (hc ▸ List.mem_cons_self)
    · rintro rfl
      exact (List.cons.inj (hc.symm.trans (utf8EncodeChar_of_ascii hd))).1

/-! ## Sizes and places -/

/-- Letters of either case have the same size. -/
theorem utf8Size_toLower (c : Char) : c.toLower.utf8Size = c.utf8Size := by
  unfold Char.toLower
  split
  next h =>
    have hc : c.utf8Size = 1 := Char.utf8Size_eq_one_iff.2 (UInt32.le_trans h.2 (by decide))
    rw [hc, Char.utf8Size_eq_one_iff]
    have hcode : 65 ≤ c.val.toNat ∧ c.val.toNat ≤ 90 := h
    show (c.val + 32).toNat ≤ 127
    rw [UInt32.toNat_add]
    change (c.val.toNat + 32) % 4294967296 ≤ 127
    omega
  next => rfl

theorem utf8ByteSize_eq_length (text : String) :
    text.utf8ByteSize = (text.toList.flatMap String.utf8EncodeChar).length := by
  rw [← String.size_toByteArray, ← String.utf8Encode_toList, List.utf8Encode,
    List.size_toByteArray]

/-- Names that differ in letter case only are of the same length. -/
theorem utf8ByteSize_eq_of_sameName {a b : String} (h : sameName a b = true) :
    a.utf8ByteSize = b.utf8ByteSize := by
  have hsizes : ∀ text : String, text.utf8ByteSize
      = ((folded text).flatMap String.utf8EncodeChar).length := by
    intro text
    rw [utf8ByteSize_eq_length, folded, List.length_flatMap, List.length_flatMap, List.map_map]
    refine congrArg List.sum (List.map_congr_left fun c _ => ?_)
    simp only [Function.comp_apply, String.length_utf8EncodeChar, utf8Size_toLower]
  rw [hsizes, hsizes, sameName_iff.1 h]

/-- A valid offset is a position. -/
theorem pos?_eq_some {text : String} {offset : String.Pos.Raw} (h : offset.IsValid text) :
    text.pos? offset = some (text.pos offset h) := by
  have hslice : String.Pos.Raw.isValidForSlice text.toSlice offset = true := by
    simpa using h
  rw [String.pos?, String.Slice.pos?, dif_pos hslice]
  rfl

/-- The byte behind a text is the first one of the next character. -/
theorem toByteArray_getElem?_append (l r : String) (c : Char) :
    (l ++ String.singleton c ++ r).toByteArray[l.utf8ByteSize]?
      = (String.utf8EncodeChar c).head? := by
  have hbytes : (l ++ String.singleton c ++ r).toByteArray
      = l.toByteArray ++ ((String.utf8EncodeChar c).toByteArray ++ r.toByteArray) := by
    rw [String.toByteArray_append, String.toByteArray_append, String.toByteArray_singleton,
      List.utf8Encode_singleton, ByteArray.append_assoc]
  have hpos : 0 < (String.utf8EncodeChar c).length := by
    rw [String.length_utf8EncodeChar]
    exact c.utf8Size_pos
  have hlt : l.utf8ByteSize
      < (l.toByteArray ++ ((String.utf8EncodeChar c).toByteArray ++ r.toByteArray)).size := by
    rw [ByteArray.size_append, ByteArray.size_append, String.size_toByteArray,
      List.size_toByteArray]
    omega
  rw [hbytes, getElem?_pos (_ : ByteArray) _ hlt, List.head?_eq_getElem?,
    List.getElem?_eq_getElem hpos, Option.some_inj, ByteArray.getElem_append_right (by simp)]
  simp only [String.size_toByteArray, Nat.sub_self]
  rw [ByteArray.getElem_append_left (by simpa using hpos)]
  simp

/-- Where the byte of a dot stands, a text can be cut, and the dot is the next character. -/
theorem exists_pos?_of_dot {text : String} {size : Nat}
    (h : text.toByteArray[size]? = some '.'.toUInt8) :
    ∃ place rest, text.pos? ⟨size⟩ = some place ∧ place.offset.byteIdx = size
      ∧ text = (text.sliceTo place).copy ++ "." ++ rest := by
  obtain ⟨hlt, hbyte⟩ := getElem?_eq_some_iff.1 h
  have hvalid : String.Pos.Raw.IsValid text ⟨size⟩ := by
    refine String.Pos.Raw.isValid_iff_isUTF8FirstByte.2 (.inr ⟨hlt, ?_⟩)
    rw [String.getUTF8Byte_eq_getElem, hbyte]
    exact .inl rfl
  obtain ⟨place, hplace⟩ : ∃ place, place = text.pos ⟨size⟩ hvalid := ⟨_, rfl⟩
  have hsize : place.offset.byteIdx = size := by rw [hplace]; rfl
  have hend : place ≠ text.endPos := by
    rintro rfl
    exact absurd hlt (Nat.not_lt.2 (Nat.le_of_eq hsize))
  have hcut := String.Pos.eq_copy_sliceTo_append_get hend
  have hfirst := toByteArray_getElem?_append (text.sliceTo place).copy
    (text.sliceFrom (place.next hend)).copy (place.get hend)
  rw [← hcut, String.Slice.utf8ByteSize_copy, String.utf8ByteSize_sliceTo, hsize, h] at hfirst
  obtain ⟨tail, htail⟩ := List.head?_eq_some_iff.1 hfirst.symm
  have hdot : '.'.toUInt8 ∈ String.utf8EncodeChar (place.get hend) :=
    htail ▸ List.mem_cons_self
  rw [eq_of_toUInt8_mem (by decide) hdot] at hcut
  exact ⟨place, _, hplace ▸ pos?_eq_some hvalid, hsize, hcut⟩

end EntitySql.Text
