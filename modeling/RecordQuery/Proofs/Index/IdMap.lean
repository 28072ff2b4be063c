import RecordQuery.Index.RecordIndex
import RecordQuery.Proofs.Record

/-!
# The map of identifiers

In every state of an index the map holds each stored record under its own position, and the stored
records are different. So a look-up finds what a search of the records would find, and an insertion
either gives the identifier of the one equal record or stores the new one behind all others.
-/

namespace RecordQuery

namespace IdMap

variable {ids : IdMap} {records : List Record}

/-- Whether the entries of a map are the records of a list with their positions. -/
def Places (ids : IdMap) (records : List Record) : Prop :=
  ∀ r id, (r, id) ∈ ids.entries ↔ records[id]? = some r

theorem places_empty : empty.Places [] := by
  intro r id
  rw [List.getElem?_nil]
  exact ⟨fun mem => absurd mem List.not_mem_nil, fun found => absurd found (Option.some_ne_none r).symm⟩

/-- A further record is given the next position. -/
theorem Places.insert (h : ids.Places records) (r : Record) :
    (ids.insert r records.length).Places (records ++ [r]) := by
  intro s id
  rw [IdMap.insert, List.mem_cons, Prod.mk.injEq, h s id]
  rcases Nat.lt_trichotomy id records.length with bound | rfl | beyond
  · rw [List.getElem?_append_left bound]
    exact or_iff_right fun last => absurd last.2 (Nat.ne_of_lt bound)
  · rw [List.getElem?_concat_length, List.getElem?_eq_none (Nat.le_refl _), Option.some.injEq]
    simp [eq_comm]
  · have outside : (records ++ [r]).length ≤ id := by
      rwa [List.length_append]
    rw [List.getElem?_eq_none (Nat.le_of_lt beyond), List.getElem?_eq_none outside]
    simp [Nat.ne_of_gt beyond]

/-- Where the records are different a look-up finds the one record that equals the given one. -/
theorem Places.find?_eq_some_iff (h : ids.Places records) (different : Record.AllDifferent records)
    {r : Record} {id : RecordId} :
    ids.find? r = some id ↔ ∃ stored, records[id]? = some stored ∧ stored.same r = true := by
  unfold IdMap.find?
  rw [Option.map_eq_some_iff]
  constructor
  · rintro ⟨⟨stored, id⟩, first, rfl⟩
    have same := List.find?_some first
    exact ⟨stored, (h stored id).mp (List.mem_of_find?_eq_some first), same⟩
  · rintro ⟨stored, found, same⟩
    have noted := (h stored id).mpr found
    cases first : ids.entries.find? fun entry => entry.1.same r with
    | none => exact absurd same (List.find?_eq_none.mp first _ noted)
    | some entry =>
        have found' := (h entry.1 entry.2).mp (List.mem_of_find?_eq_some first)
        have same' := List.find?_some first
        exact ⟨entry, rfl, different.eq_of_same found' same' found same⟩

end IdMap

namespace RecordIndex

/-- Whether the stored records are different and the map holds each of them under its position. -/
structure Numbered (index : RecordIndex) : Prop where
  placed : index.ids.Places index.records
  different : Record.AllDifferent index.records

theorem numbered_empty : empty.Numbered := ⟨IdMap.places_empty, List.Pairwise.nil⟩

namespace Numbered

variable {index : RecordIndex}

/-- A look-up finds what a search of the records finds. -/
theorem idOf?_eq_findIdx? (h : index.Numbered) (r : Record) :
    index.idOf? r = index.records.findIdx? fun stored => stored.same r := by
  ext id
  rw [idOf?, h.placed.find?_eq_some_iff h.different, List.findIdx?_eq_some_iff_getElem]
  constructor
  · rintro ⟨stored, found, same⟩
    obtain ⟨bound, rfl⟩ := List.getElem?_eq_some_iff.mp found
    refine ⟨bound, same, fun earlier less equal => ?_⟩
    exact Nat.ne_of_lt less
      (h.different.eq_of_same (List.getElem?_eq_getElem (less.trans bound)) equal found same)
  · rintro ⟨bound, same, -⟩
    exact ⟨index.records[id], List.getElem?_eq_getElem bound, same⟩

/-- An insertion finds the stored record that equals the new one, or puts the new one behind all
others. -/
theorem insert_cases (h : index.Numbered) (r : Record) :
    (∃ id stored, index.records[id]? = some stored ∧ stored.same r = true ∧
      index.insert r = (index, id)) ∨
    ((∀ stored ∈ index.records, stored.same r = false) ∧
      index.insert r =
        ({ index with
            records := index.records ++ [r]
            ids := index.ids.insert r index.size }, index.size)) := by
  unfold RecordIndex.insert
  cases known : index.idOf? r with
  | some id =>
      obtain ⟨stored, found, same⟩ := (h.placed.find?_eq_some_iff h.different).mp known
      exact .inl ⟨id, stored, found, same, rfl⟩
  | none =>
      rw [h.idOf?_eq_findIdx?] at known
      exact .inr ⟨List.findIdx?_eq_none_iff.mp known, rfl⟩

theorem insert (h : index.Numbered) (r : Record) : (index.insert r).1.Numbered := by
  rcases h.insert_cases r with ⟨id, stored, -, -, result⟩ | ⟨new, result⟩
  · rwa [result]
  · rw [result]
    exact ⟨h.placed.insert r, h.different.concat new⟩

end Numbered

/-- An insertion leaves the posting lists, and the records that are stored in their places. -/
theorem insert_frame (index : RecordIndex) (r : Record) :
    (index.insert r).1.postings = index.postings ∧
      ∃ more, (index.insert r).1.records = index.records ++ more := by
  unfold insert
  cases index.idOf? r with
  | some id => exact ⟨rfl, [], (List.append_nil _).symm⟩
  | none => exact ⟨rfl, [r], rfl⟩

end RecordIndex

end RecordQuery
