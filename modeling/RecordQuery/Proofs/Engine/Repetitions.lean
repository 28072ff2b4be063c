import RecordQuery.Proofs.Engine.Groups

/-!
# Repeated records

Under the rejecting policy entries are stored one after the other up to the first one whose record
equals an earlier one. As long as there is none, every record has its position as its identifier and its
object as its only origin, which is how the failure comes to name the two positions.
-/

namespace RecordQuery

open Record

variable {α : Type}

/-- Whether `j` is the first position that holds a record equal to an earlier one, and `i` the first one
that holds this record. -/
def FirstRepetition (records : List Record) (i j : Nat) : Prop :=
  ∃ before s after, records = before ++ s :: after ∧ j = before.length ∧ AllDifferent before ∧
    before.findIdx? (fun r => r.same s) = some i

theorem allDifferent_or_repetition_aux {done : List Record} (rest : List Record)
    (different : AllDifferent done) :
    AllDifferent (done ++ rest) ∨ ∃ i j, FirstRepetition (done ++ rest) i j := by
  induction rest generalizing done with
  | nil => exact .inl ((List.append_nil done).symm ▸ different)
  | cons s rest ih =>
      cases found : done.findIdx? fun r => r.same s with
      | some i => exact .inr ⟨i, done.length, done, s, rest, rfl, rfl, different, found⟩
      | none =>
          have longer := ih (different.concat (List.findIdx?_eq_none_iff.mp found))
          rwa [List.append_assoc, List.singleton_append] at longer

/-- Records are different, or there is a first repetition among them. -/
theorem allDifferent_or_repetition (records : List Record) :
    AllDifferent records ∨ ∃ i j, FirstRepetition records i j :=
  allDifferent_or_repetition_aux records List.Pairwise.nil

namespace QueryEngine

/-- Whether an index and origins are those of entries that have all been stored apart, under the
rejecting policy. -/
structure StoredApart (entries : List (Record × α)) (index : RecordIndex) (origins : Origins α) :
    Prop where
  policy_eq : origins.policy = .reject
  numbered : index.Numbered
  stored : index.records = entries.map Prod.fst
  noted : ∀ i, origins.slot i = (entries[i]?.map fun entry => ⟨i, entry.2⟩).toList

theorem storedApart_empty :
    StoredApart (α := α) [] RecordIndex.empty (Origins.empty .reject) :=
  ⟨rfl, RecordIndex.numbered_empty, rfl, fun _ => rfl⟩

variable {done : List (Record × α)} {index : RecordIndex} {origins : Origins α} {r : Record}

/-- An entry with a new record is stored apart from the others. -/
theorem StoredApart.step (h : StoredApart done index origins)
    (new : ∀ s ∈ done.map Prod.fst, s.same r = false) (object : α) :
    (origins.insert (index.insert r).2 done.length object).2 = .ok () ∧
      StoredApart (done ++ [(r, object)]) (index.insert r).1
        (origins.insert (index.insert r).2 done.length object).1 := by
  have place : index.size = done.length := by
    rw [RecordIndex.size, h.stored, List.length_map]
  have appended : (index.insert r).1.records = index.records ++ [r] ∧
      (index.insert r).2 = done.length := by
    rcases h.numbered.insert_cases r with ⟨id, stored, found, same, -⟩ | ⟨-, result⟩
    · rw [h.stored] at found
      rw [new stored (List.mem_of_getElem? found)] at same
      cases same
    · rw [result]
      exact ⟨rfl, place⟩
  obtain ⟨records, given⟩ := appended
  have free : origins.slot done.length = [] := by
    rw [h.noted, List.getElem?_eq_none (Nat.le_refl _)]
    rfl
  rw [given]
  refine ⟨(Origins.insert_eq_ok_iff ..).mpr (.inl free), ?_, h.numbered.insert r, ?_, fun i => ?_⟩
  · rw [Origins.policy_insert, h.policy_eq]
  · rw [records, h.stored, List.map_append, List.map_singleton]
  · rw [Origins.slot_insert]
    by_cases last : i = done.length
    · rw [if_pos last, last, free, List.getElem?_concat_length]
      rfl
    · rw [if_neg last, h.noted, List.getElem?_append]
      by_cases bound : i < done.length
      · rw [if_pos bound]
      · have behind : done.length < i := Nat.lt_of_le_of_ne (Nat.not_lt.mp bound) (Ne.symm last)
        have beyond : [(r, object)].length ≤ i - done.length := Nat.sub_pos_of_lt behind
        rw [if_neg bound, List.getElem?_eq_none (Nat.not_lt.mp bound),
          List.getElem?_eq_none beyond]

/-- An entry with the record of another one is refused with both positions. -/
theorem StoredApart.correlate_of_repeated (h : StoredApart done index origins) {i : Nat}
    (found : (done.map Prod.fst).findIdx? (fun s => s.same r) = some i) (object : α)
    (rest : List (Record × α)) :
    correlate index origins done.length ((r, object) :: rest) =
      .error (.duplicateRecord i done.length) := by
  have located : index.idOf? r = some i := by
    rw [h.numbered.idOf?_eq_findIdx?, h.stored]
    exact found
  have bound : i < done.length := by
    obtain ⟨bound, -⟩ := List.findIdx?_eq_some_iff_getElem.mp found
    rwa [List.length_map] at bound
  have taken : origins.slot i = [⟨i, done[i].2⟩] := by
    rw [h.noted, List.getElem?_eq_getElem bound]
    rfl
  have refused : (origins.insert i done.length object).2 =
      .error (.duplicateRecord i done.length) := by
    unfold Origins.insert
    rw [taken, h.policy_eq]
    rfl
  unfold correlate
  rw [RecordIndex.insert, located]
  rcases inserted : origins.insert i done.length object with ⟨next, outcome⟩
  rw [inserted] at refused
  obtain rfl : outcome = _ := refused
  simp only [inserted]

/-- Entries with different records are stored one after the other, and then the others behind them. -/
theorem StoredApart.correlate_append (h : StoredApart done index origins)
    (entries : List (Record × α)) (different : AllDifferent ((done ++ entries).map Prod.fst)) :
    ∃ built noted, StoredApart (done ++ entries) built noted ∧
      ∀ more, correlate index origins done.length (entries ++ more) =
        correlate built noted (done ++ entries).length more := by
  induction entries generalizing done index origins with
  | nil =>
      rw [List.append_nil]
      exact ⟨index, origins, h, fun _ => rfl⟩
  | cons entry rest ih =>
      obtain ⟨r, object⟩ := entry
      have split : done ++ (r, object) :: rest = (done ++ [(r, object)]) ++ rest := by simp
      have new : ∀ s ∈ done.map Prod.fst, s.same r = false := by
        rw [List.map_append] at different
        intro s mem
        exact (List.pairwise_append.mp different).2.2 s mem r (List.mem_cons_self ..)
      obtain ⟨success, apart⟩ := h.step new object
      rw [split] at different ⊢
      obtain ⟨built, noted, whole, behind⟩ := ih apart different
      refine ⟨built, noted, whole, fun more => ?_⟩
      rw [← behind more, List.length_append, List.length_singleton, List.cons_append, correlate]
      rcases inserted : origins.insert (index.insert r).2 done.length object with ⟨next, outcome⟩
      rw [inserted] at success
      obtain rfl : outcome = .ok () := success
      simp only [inserted]

variable {entries : List (Record × α)}

/-- Entries with different records can all be stored. -/
theorem exists_correlate_of_allDifferent (different : AllDifferent (entries.map Prod.fst)) :
    ∃ stored, correlate RecordIndex.empty (Origins.empty .reject) 0 entries = .ok stored := by
  obtain ⟨built, noted, -, result⟩ := storedApart_empty.correlate_append entries different
  refine ⟨(built, noted), ?_⟩
  have whole := result []
  rwa [List.append_nil] at whole

/-- A first repetition is refused with its two positions. -/
theorem correlate_of_repetition {i j : Nat}
    (repetition : FirstRepetition (entries.map Prod.fst) i j) :
    correlate RecordIndex.empty (Origins.empty .reject) 0 entries =
      .error (.duplicateRecord i j) := by
  obtain ⟨before, s, after, split, rfl, different, found⟩ := repetition
  obtain ⟨front, tail, rfl, rfl, tailed⟩ := List.map_eq_append_iff.mp split
  obtain ⟨entry, rest, rfl, rfl, rfl⟩ := List.map_eq_cons_iff.mp tailed
  obtain ⟨built, noted, apart, result⟩ := storedApart_empty.correlate_append front different
  rw [List.nil_append] at apart
  have refused := apart.correlate_of_repeated found entry.2 rest
  calc correlate RecordIndex.empty (Origins.empty .reject) 0 (front ++ entry :: rest)
      = correlate built noted front.length (entry :: rest) := result _
    _ = .error (.duplicateRecord _ front.length) := refused
    _ = _ := by rw [List.length_map]

/-- Storing entries fails exactly under the rejecting policy where a record is repeated, and it names the
positions of the first repetition. -/
theorem correlate_eq_error_iff {policy : DuplicatePolicy} {e : EvalError} :
    correlate RecordIndex.empty (Origins.empty policy) 0 entries = .error e ↔
      policy = .reject ∧ ∃ i j, FirstRepetition (entries.map Prod.fst) i j ∧
        e = .duplicateRecord i j := by
  constructor
  · intro failed
    by_cases rejecting : policy = .reject
    · subst rejecting
      obtain different | ⟨i, j, repetition⟩ := allDifferent_or_repetition (entries.map Prod.fst)
      · obtain ⟨stored, success⟩ := exists_correlate_of_allDifferent different
        rw [success] at failed
        cases failed
      · rw [correlate_of_repetition repetition] at failed
        exact ⟨rfl, i, j, repetition, (Except.error.inj failed).symm⟩
    · obtain ⟨stored, success⟩ : ∃ stored,
          correlate RecordIndex.empty (Origins.empty policy) 0 entries = .ok stored :=
        exists_correlate entries rejecting
      rw [success] at failed
      cases failed
  · rintro ⟨rfl, i, j, repetition, rfl⟩
    exact correlate_of_repetition repetition

/-- Entries can be stored unless the policy is the rejecting one and a record is repeated. -/
theorem exists_correlate_iff {policy : DuplicatePolicy} :
    (∃ index origins, correlate RecordIndex.empty (Origins.empty policy) 0 entries =
        .ok (index, origins)) ↔
      (policy = .reject → AllDifferent (entries.map Prod.fst)) := by
  constructor
  · rintro ⟨index, origins, success⟩ rejecting
    obtain different | ⟨i, j, repetition⟩ := allDifferent_or_repetition (entries.map Prod.fst)
    · exact different
    · rw [rejecting, correlate_of_repetition repetition] at success
      cases success
  · intro different
    by_cases rejecting : policy = .reject
    · rw [rejecting]
      obtain ⟨⟨index, origins⟩, success⟩ := exists_correlate_of_allDifferent (different rejecting)
      exact ⟨index, origins, success⟩
    · obtain ⟨⟨index, origins⟩, success⟩ : ∃ stored,
          correlate RecordIndex.empty (Origins.empty policy) 0 entries = .ok stored :=
        exists_correlate entries rejecting
      exact ⟨index, origins, success⟩

end QueryEngine

end RecordQuery
