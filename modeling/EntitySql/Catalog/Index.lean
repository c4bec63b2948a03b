/-!
# Indexes

An index keeps a list of values for each key, in the order in which the values were added. A lookup
finds what a search through all the added pairs would find (`Index.get_ofPairs`).
-/

namespace EntitySql

/-- Lists of values by key. -/
structure Index (κ α : Type) where
  /-- The keys that have values, each with its values. -/
  entries : List (κ × List α)

namespace Index

variable {κ α : Type} [DecidableEq κ]

/-- The values of a key among some entries; a key without an entry has none. -/
def find (key : κ) : List (κ × List α) → List α
  | [] => []
  | (key', values) :: entries => if key' = key then values else find key entries

/-- Entries with one more value for a key, at the end of its list. -/
def add (key : κ) (value : α) : List (κ × List α) → List (κ × List α)
  | [] => [(key, [value])]
  | (key', values) :: entries =>
    if key' = key then (key', values ++ [value]) :: entries
    else (key', values) :: add key value entries

/-- The values of a key. -/
def get (index : Index κ α) (key : κ) : List α :=
  find key index.entries

/-- The index with one more value for a key. -/
def push (index : Index κ α) (pair : κ × α) : Index κ α :=
  ⟨add pair.1 pair.2 index.entries⟩

/-- The index of some pairs of a key and a value. -/
def ofPairs (pairs : List (κ × α)) : Index κ α :=
  pairs.foldl push ⟨[]⟩

/-- A value is added behind those of its key, and other keys keep theirs. -/
theorem find_add (key key' : κ) (value : α) (entries : List (κ × List α)) :
    find key (add key' value entries)
      = if key' = key then find key entries ++ [value] else find key entries := by
  induction entries with
  | nil => simp [add, find]
  | cons entry entries ih =>
    obtain ⟨key'', values⟩ := entry
    by_cases hadd : key'' = key'
    · subst hadd
      by_cases hkey : key'' = key <;> simp [add, find, hkey]
    · by_cases hkey : key'' = key
      · subst hkey
        simp [add, find, hadd, Ne.symm hadd]
      · simp [add, find, hadd, hkey, ih]

/-- A value is added to the list of its key, and the other lists stay as they are. -/
theorem get_push (index : Index κ α) (pair : κ × α) (key : κ) : (index.push pair).get key
    = index.get key ++ (if pair.1 = key then [pair.2] else []) := by
  rw [get, push, find_add]
  split
  · rfl
  · exact (List.append_nil _).symm

/-- Pushed values stand behind those there before, in their order. -/
theorem get_foldl_push (index : Index κ α) (pairs : List (κ × α)) (key : κ) :
    (pairs.foldl push index).get key
      = index.get key ++ (pairs.filter (·.1 = key)).map (·.2) := by
  induction pairs generalizing index with
  | nil => simp
  | cons pair pairs ih =>
    rw [List.foldl_cons, ih, get_push, List.append_assoc]
    by_cases hkey : pair.1 = key <;> simp [hkey]

/-- The values of a key are those that stand with it in the pairs, in the order of the pairs. -/
theorem get_ofPairs (pairs : List (κ × α)) (key : κ) :
    (ofPairs pairs).get key = (pairs.filter (·.1 = key)).map (·.2) :=
  get_foldl_push ⟨[]⟩ pairs key

end Index

end EntitySql
