/-!
# Maps from names, sorted

A finite map whose keys are strings, listed by ascending key. Strings are ordered by code point. Two
maps with the same entries are the same list, so the order in which entries were added leaves no
trace.
-/

namespace RecordQuery

variable {α : Type}

/-- A list of pairs with strictly ascending keys. -/
structure SortedMap (α : Type) where
  entries : List (String × α)
  ascending : entries.Pairwise fun a b => a.1 < b.1

namespace SortedMap

/-- The map without entries. -/
def empty : SortedMap α := ⟨[], .nil⟩

/-- Puts a pair into a list of pairs with ascending keys, in the place of one with the same key. -/
def insertPair (key : String) (value : α) : List (String × α) → List (String × α)
  | [] => [(key, value)]
  | (k, v) :: rest =>
    if key < k then (key, value) :: (k, v) :: rest
    else if key = k then (key, value) :: rest
    else (k, v) :: insertPair key value rest

theorem mem_insertPair {key : String} {value : α} {pairs : List (String × α)} {pair : String × α}
    (h : pair ∈ insertPair key value pairs) : pair = (key, value) ∨ pair ∈ pairs := by
  induction pairs with
  | nil => simpa [insertPair] using h
  | cons head rest ih =>
    obtain ⟨k, v⟩ := head
    simp only [insertPair] at h
    split at h
    · simpa using h
    · split at h
      · rcases List.mem_cons.mp h with h | h
        · exact .inl h
        · exact .inr (List.mem_cons_of_mem _ h)
      · rcases List.mem_cons.mp h with h | h
        · exact .inr (by simp [h])
        · exact (ih h).imp_right (List.mem_cons_of_mem _)

theorem insertPair_ascending {key : String} {value : α} {pairs : List (String × α)}
    (h : pairs.Pairwise fun a b => a.1 < b.1) :
    (insertPair key value pairs).Pairwise fun a b => a.1 < b.1 := by
  induction pairs with
  | nil => simp [insertPair]
  | cons head rest ih =>
    obtain ⟨k, v⟩ := head
    obtain ⟨first, others⟩ := List.pairwise_cons.mp h
    simp only [insertPair]
    split
    · rename_i less
      refine List.pairwise_cons.mpr ⟨fun pair mem => ?_, h⟩
      rcases List.mem_cons.mp mem with rfl | mem
      · exact less
      · exact String.lt_trans less (first pair mem)
    · rename_i notLess
      split
      · rename_i same
        subst same
        exact List.pairwise_cons.mpr ⟨first, others⟩
      · rename_i differs
        refine List.pairwise_cons.mpr ⟨fun pair mem => ?_, ih others⟩
        rcases mem_insertPair mem with rfl | mem
        · exact Decidable.byContradiction fun notGreater =>
            differs (String.le_antisymm (String.not_lt.mp notGreater) (String.not_lt.mp notLess))
        · exact first pair mem

/-- The map with one more entry, which replaces that of the same key. -/
def insert (map : SortedMap α) (key : String) (value : α) : SortedMap α :=
  ⟨insertPair key value map.entries, insertPair_ascending map.ascending⟩

/-- The map of a list of pairs, in which a later pair replaces an earlier one of the same key. -/
def ofList (pairs : List (String × α)) : SortedMap α :=
  pairs.foldl (fun map pair => map.insert pair.1 pair.2) empty

/-- The value of a key. -/
def get? (map : SortedMap α) (key : String) : Option α := map.entries.lookup key

/-- Whether the key has a value. -/
def contains (map : SortedMap α) (key : String) : Bool := (map.get? key).isSome

/-- The keys in ascending order. -/
def keys (map : SortedMap α) : List String := map.entries.map Prod.fst

/-- The values in the order of their keys. -/
def values (map : SortedMap α) : List α := map.entries.map Prod.snd

/-- The number of entries. -/
def size (map : SortedMap α) : Nat := map.entries.length

/-- Whether there is no entry. -/
def isEmpty (map : SortedMap α) : Bool := map.entries.isEmpty

instance : Inhabited (SortedMap α) := ⟨empty⟩

theorem lookup_cons_ite (key k : String) (v : α) (pairs : List (String × α)) :
    List.lookup key ((k, v) :: pairs) = if key = k then some v else pairs.lookup key := by
  by_cases same : key = k
  · simp [same]
  · simp [List.lookup_cons, beq_eq_false_iff_ne.mpr same, same]

theorem lookup_insertPair (key other : String) (value : α) (pairs : List (String × α)) :
    (insertPair key value pairs).lookup other =
      if other = key then some value else pairs.lookup other := by
  induction pairs with
  | nil => simp [insertPair, lookup_cons_ite]
  | cons head rest ih =>
    obtain ⟨k, v⟩ := head
    simp only [insertPair]
    split
    · simp [lookup_cons_ite]
    · split
      · rename_i equal
        subst equal
        by_cases same : other = key <;> simp [lookup_cons_ite, same]
      · rename_i differs
        by_cases same : other = k
        · subst same
          simp [Ne.symm differs]
        · simp [lookup_cons_ite, same, ih]

@[simp]
theorem get?_empty (key : String) : (empty : SortedMap α).get? key = none := rfl

/-- An insertion sets the value of its key and leaves all others. -/
@[simp]
theorem get?_insert (map : SortedMap α) (key other : String) (value : α) :
    (map.insert key value).get? other = if other = key then some value else map.get? other :=
  lookup_insertPair key other value map.entries

end SortedMap

end RecordQuery
