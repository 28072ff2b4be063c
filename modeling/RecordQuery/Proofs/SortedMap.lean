import Mathlib.Data.List.Sort
import RecordQuery.SortedMap

/-!
# Entries of sorted maps

The entries of a map and its values by key determine each other, because every key has one entry.
-/

namespace RecordQuery

namespace SortedMap

variable {α : Type}

/-- Behind an entry of an ascending list there is no other one of its key. -/
theorem lookup_eq_none_of_ascending {key : String} {value : α} {pairs : List (String × α)}
    (ascending : ((key, value) :: pairs).Pairwise fun a b => a.1 < b.1) :
    pairs.lookup key = none := by
  rw [List.lookup_eq_none_iff]
  intro pair mem
  have less : key < pair.1 := (List.pairwise_cons.mp ascending).1 pair mem
  simpa using String.ne_of_lt less

theorem lookup_eq_some_iff_mem {key : String} {value : α} {pairs : List (String × α)}
    (ascending : pairs.Pairwise fun a b => a.1 < b.1) :
    pairs.lookup key = some value ↔ (key, value) ∈ pairs := by
  induction pairs with
  | nil => simp
  | cons head rest ih =>
      obtain ⟨k, v⟩ := head
      have others := ih (List.pairwise_cons.mp ascending).2
      rw [lookup_cons_ite, List.mem_cons, Prod.mk.injEq]
      by_cases same : key = k
      · subst same
        have noOther : (key, value) ∉ rest := by
          rw [← others, lookup_eq_none_of_ascending ascending]
          simp
        simp [noOther, eq_comm]
      · simp [same, others]

/-- Changing the values of a list changes those of its keys. -/
theorem lookup_map {β : Type} (f : α → β) (pairs : List (String × α)) (key : String) :
    (pairs.map fun pair => (pair.1, f pair.2)).lookup key = (pairs.lookup key).map f := by
  induction pairs with
  | nil => rfl
  | cons pair rest ih =>
      rw [List.map_cons, lookup_cons_ite, lookup_cons_ite, ih]
      split <;> rfl

/-- The entries of a map are its keys with their values. -/
theorem get?_eq_some_iff {map : SortedMap α} {key : String} {value : α} :
    map.get? key = some value ↔ (key, value) ∈ map.entries :=
  lookup_eq_some_iff_mem map.ascending

/-- The keys of a map are those that have a value. -/
theorem mem_keys_iff {map : SortedMap α} {key : String} :
    key ∈ map.keys ↔ map.contains key = true := by
  rw [keys, List.mem_map, contains, Option.isSome_iff_exists]
  constructor
  · rintro ⟨⟨_, value⟩, mem, rfl⟩
    exact ⟨value, get?_eq_some_iff.mpr mem⟩
  · rintro ⟨value, found⟩
    exact ⟨(key, value), get?_eq_some_iff.mp found, rfl⟩

theorem mem_foldl_insert {pair : String × α} {pairs : List (String × α)} {map : SortedMap α}
    (h : pair ∈ (pairs.foldl (fun map pair => map.insert pair.1 pair.2) map).entries) :
    pair ∈ pairs ∨ pair ∈ map.entries := by
  induction pairs generalizing map with
  | nil => exact .inr h
  | cons head rest ih =>
      rcases ih h with mem | mem
      · exact .inl (List.mem_cons_of_mem _ mem)
      · rcases mem_insertPair mem with rfl | mem
        · exact .inl (List.mem_cons_self ..)
        · exact .inr mem

/-- The map of a list has no other entries than the pairs of the list. -/
theorem mem_of_mem_ofList {pair : String × α} {pairs : List (String × α)}
    (h : pair ∈ (ofList pairs).entries) : pair ∈ pairs := by
  rcases mem_foldl_insert h with mem | mem
  · exact mem
  · exact absurd mem (List.not_mem_nil)

/-- Ascending lists that give every key the same value are equal. -/
theorem eq_of_lookup_eq {pairs others : List (String × α)}
    (ascending : pairs.Pairwise fun a b => a.1 < b.1)
    (ascending' : others.Pairwise fun a b => a.1 < b.1)
    (same : ∀ key, pairs.lookup key = others.lookup key) : pairs = others := by
  have irreflexive : Std.Irrefl fun a b : String × α => a.1 < b.1 :=
    ⟨fun a => String.lt_irrefl a.1⟩
  have antisymmetric : Std.Antisymm fun a b : String × α => a.1 < b.1 :=
    ⟨fun a b less less' => absurd (String.lt_trans less less') (String.lt_irrefl a.1)⟩
  apply ascending.eq_of_mem_iff ascending'
  intro pair
  rw [← lookup_eq_some_iff_mem ascending, ← lookup_eq_some_iff_mem ascending', same]

theorem insertPair_of_greatest {key : String} {value : α} {pairs : List (String × α)}
    (greatest : ∀ pair ∈ pairs, pair.1 < key) :
    insertPair key value pairs = pairs ++ [(key, value)] := by
  induction pairs with
  | nil => rfl
  | cons head rest ih =>
      obtain ⟨k, v⟩ := head
      have less : k < key := greatest (k, v) (List.mem_cons_self ..)
      rw [insertPair, if_neg fun other => String.lt_irrefl k (String.lt_trans less other),
        if_neg (Ne.symm (String.ne_of_lt less)), ih fun pair mem =>
          greatest pair (List.mem_cons_of_mem _ mem)]
      rfl

theorem entries_foldl_insert {pairs : List (String × α)} {map : SortedMap α}
    (ascending : (map.entries ++ pairs).Pairwise fun a b => a.1 < b.1) :
    (pairs.foldl (fun map pair => map.insert pair.1 pair.2) map).entries =
      map.entries ++ pairs := by
  induction pairs generalizing map with
  | nil => exact (List.append_nil _).symm
  | cons pair rest ih =>
      have placed : (map.insert pair.1 pair.2).entries = map.entries ++ [pair] :=
        insertPair_of_greatest fun other mem =>
          (List.pairwise_append.mp ascending).2.2 other mem pair (List.mem_cons_self ..)
      rw [List.foldl_cons, ih (by rw [placed, List.append_assoc]; exact ascending), placed,
        List.append_assoc]
      rfl

/-- An ascending list is kept as it is. -/
theorem entries_ofList {pairs : List (String × α)}
    (ascending : pairs.Pairwise fun a b => a.1 < b.1) : (ofList pairs).entries = pairs :=
  entries_foldl_insert ascending

end SortedMap

end RecordQuery
