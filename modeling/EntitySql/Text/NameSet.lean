/-!
# Sets of names

A set of texts as the list of its members in strictly increasing order, so that two sets with the
same members are equal. The order is that of the code points, which is also that of the bytes.
-/

namespace EntitySql.Text

/-- The text at its place in an increasing list; nothing changes if it is there already. -/
def insertSorted (name : String) : List String → List String
  | [] => [name]
  | head :: tail =>
    if name < head then name :: head :: tail
    else if name = head then head :: tail
    else head :: insertSorted name tail

/-- A finite set of texts. -/
@[ext]
structure NameSet where
  /-- The members, in increasing order and each once. -/
  toList : List String
  sorted : toList.Pairwise (· < ·)

/-- Inserting adds the name, and nothing else. -/
theorem mem_insertSorted {x name : String} {names : List String} :
    x ∈ insertSorted name names ↔ x = name ∨ x ∈ names := by
  induction names with
  | nil => simp [insertSorted]
  | cons head tail ih =>
    simp only [insertSorted]
    split
    · simp
    · split
      next h => simp [h]
      next => simp only [List.mem_cons, ih]; grind

/-- Inserting keeps the names sorted, each once. -/
theorem pairwise_insertSorted {name : String} {names : List String}
    (h : names.Pairwise (· < ·)) : (insertSorted name names).Pairwise (· < ·) := by
  induction names with
  | nil => simp [insertSorted]
  | cons head tail ih =>
    obtain ⟨hhead, htail⟩ := List.pairwise_cons.1 h
    simp only [insertSorted]
    split
    next hlt =>
      refine List.pairwise_cons.2 ⟨fun x hx => ?_, h⟩
      rcases List.mem_cons.1 hx with rfl | hx
      · exact hlt
      · exact String.lt_trans hlt (hhead x hx)
    next hge =>
      split
      next => exact h
      next hne =>
        refine List.pairwise_cons.2 ⟨fun x hx => ?_, ih htail⟩
        rcases mem_insertSorted.1 hx with rfl | hx
        · exact Std.lt_of_le_of_ne (String.not_lt.1 hge) (Ne.symm hne)
        · exact hhead x hx

namespace NameSet

/-- The set without members. -/
def empty : NameSet :=
  ⟨[], .nil⟩

/-- The set with one more member. -/
def insert (set : NameSet) (name : String) : NameSet :=
  ⟨insertSorted name set.toList, pairwise_insertSorted set.sorted⟩

/-- The set of the members of a list. -/
def ofList (names : List String) : NameSet :=
  names.foldl insert empty

/-- Whether a text is a member, letter for letter. -/
def contains (set : NameSet) (name : String) : Bool :=
  set.toList.contains name

instance : Inhabited NameSet := ⟨empty⟩

end NameSet

end EntitySql.Text
