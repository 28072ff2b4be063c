import RecordQuery.Index.Postings
import RecordQuery.Proofs.Index.IdList
import RecordQuery.Proofs.Index.Key

/-!
# Posting lists and keys

The posting lists of an attribute are ascending, and the list of a key holds exactly the records that
have it.
-/

namespace RecordQuery

namespace Postings

open IndexKey IdList

theorem lookup_appendTo (key other : IndexKey) (id : RecordId)
    (lists : List (IndexKey × List RecordId)) :
    ((appendTo key id lists).lookup other).getD [] =
      if other = key then (lists.lookup key).getD [] ++ [id] else (lists.lookup other).getD [] := by
  induction lists with
  | nil =>
      by_cases same : other = key
      · simp [appendTo, same]
      · simp [appendTo, List.lookup_cons, beq_eq_false_iff_ne.mpr same, same]
  | cons head rest ih =>
      obtain ⟨k, ids⟩ := head
      unfold appendTo
      by_cases found : k = key
      · subst found
        rw [if_pos rfl]
        by_cases same : other = k
        · simp [same]
        · simp [List.lookup_cons, beq_eq_false_iff_ne.mpr same, same]
      · rw [if_neg found]
        by_cases here : other = k
        · subst here
          simp [found]
        · rw [List.lookup_cons, beq_eq_false_iff_ne.mpr here, ih, List.lookup_cons,
            beq_eq_false_iff_ne.mpr (Ne.symm found), List.lookup_cons,
            beq_eq_false_iff_ne.mpr here]

/-- One more record is put behind the others of its key, and all other lists are left. -/
theorem find_add (postings : Postings) (key other : IndexKey) (id : RecordId) :
    (postings.add key id).find other =
      if other = key then postings.find key ++ [id] else postings.find other :=
  lookup_appendTo key other id postings.lists

theorem mem_find_add {postings : Postings} {key other : IndexKey} {id i : RecordId} :
    i ∈ (postings.add key id).find other ↔ i ∈ postings.find other ∨ (other = key ∧ i = id) := by
  rw [find_add]
  by_cases same : other = key
  · simp [same]
  · simp [same]

section Filing

variable {policy : MixedTypePolicy} {a : Attribute}

/-- The records that are filed from an identifier on are found under their keys. -/
theorem mem_find_addRecords {records : List Record} {id : RecordId} {postings built : Postings}
    (filed : addRecords policy a postings id records = .ok built) {key : IndexKey} {i : RecordId} :
    i ∈ built.find key ↔
      i ∈ postings.find key ∨ ∃ k r, records[k]? = some r ∧ i = id + k ∧ key = keyOf a r := by
  induction records generalizing id postings with
  | nil =>
      obtain rfl := Except.ok.inj filed
      simp
  | cons record rest ih =>
      unfold addRecords at filed
      cases own : ofRecord policy a record with
      | error e =>
          rw [own] at filed
          cases filed
      | ok k =>
          rw [own] at filed
          rw [ih filed, mem_find_add, eq_keyOf_of_ofRecord own, or_assoc]
          apply or_congr Iff.rfl
          constructor
          · rintro (⟨rfl, rfl⟩ | ⟨k, r, found, rfl, rfl⟩)
            · exact ⟨0, record, rfl, rfl, rfl⟩
            · exact ⟨k + 1, r, found, Nat.succ_add_eq_add_succ id k, rfl⟩
          · rintro ⟨k, r, found, rfl, rfl⟩
            cases k with
            | zero =>
                obtain rfl := Option.some.inj found
                exact .inl ⟨rfl, rfl⟩
            | succ k => exact .inr ⟨k, r, found, (Nat.succ_add_eq_add_succ id k).symm, rfl⟩

theorem ascending_find_addRecords {records : List Record} {id : RecordId}
    {postings built : Postings} (filed : addRecords policy a postings id records = .ok built)
    (ascending : ∀ key, Ascending (postings.find key))
    (below : ∀ key, ∀ i ∈ postings.find key, i < id) (key : IndexKey) :
    Ascending (built.find key) := by
  induction records generalizing id postings with
  | nil =>
      obtain rfl := Except.ok.inj filed
      exact ascending key
  | cons record rest ih =>
      unfold addRecords at filed
      cases own : ofRecord policy a record with
      | error e =>
          rw [own] at filed
          cases filed
      | ok k =>
          rw [own] at filed
          apply ih filed
          · intro other
            rw [find_add]
            split
            · refine List.pairwise_append.mpr ⟨ascending k, List.pairwise_singleton .., ?_⟩
              intro i mem j last
              rw [List.mem_singleton.mp last]
              exact below k i mem
            · exact ascending other
          · intro other i mem
            rcases mem_find_add.mp mem with mem | ⟨-, rfl⟩
            · exact Nat.lt_succ_of_lt (below other i mem)
            · exact Nat.lt_succ_self i

/-- A record is found under its key and under no other. -/
theorem mem_find_ofRecords {records : List Record} {built : Postings}
    (filed : ofRecords policy a records = .ok built) {key : IndexKey} {i : RecordId} :
    i ∈ built.find key ↔ ∃ r, records[i]? = some r ∧ key = keyOf a r := by
  rw [mem_find_addRecords filed]
  constructor
  · rintro (mem | ⟨k, r, found, rfl, rfl⟩)
    · exact absurd mem List.not_mem_nil
    · exact ⟨r, by rwa [Nat.zero_add], rfl⟩
  · rintro ⟨r, found, rfl⟩
    exact .inr ⟨i, r, found, (Nat.zero_add i).symm, rfl⟩

theorem ascending_find_ofRecords {records : List Record} {built : Postings}
    (filed : ofRecords policy a records = .ok built) (key : IndexKey) :
    Ascending (built.find key) := by
  apply ascending_find_addRecords filed
  · exact fun _ => List.Pairwise.nil
  · exact fun _ _ mem => absurd mem List.not_mem_nil

/-- Why a record is refused, if it is. -/
def refusal? (policy : MixedTypePolicy) (a : Attribute) (r : Record) : Option EvalError :=
  match ofRecord policy a r with
  | .ok _ => none
  | .error e => some e

/-- The posting lists of an attribute fail with the first record that is refused. -/
theorem ofRecords_eq_error_iff {records : List Record} {e : EvalError} :
    ofRecords policy a records = .error e ↔ records.findSome? (refusal? policy a) = some e := by
  unfold ofRecords
  generalize empty = postings
  generalize 0 = id
  induction records generalizing postings id with
  | nil => simp [addRecords]
  | cons record rest ih =>
      rw [addRecords, List.findSome?_cons, refusal?]
      cases ofRecord policy a record with
      | ok key => exact ih ..
      | error e' => simp

/-- Where texts stand in for numbers every attribute has posting lists. -/
theorem exists_ofRecords_textFallback (a : Attribute) (records : List Record) :
    ∃ built, ofRecords .textFallback a records = .ok built := by
  unfold ofRecords
  generalize empty = postings
  generalize 0 = id
  induction records generalizing postings id with
  | nil => exact ⟨postings, rfl⟩
  | cons record rest ih =>
      rw [addRecords, ofRecord_textFallback]
      exact ih ..

end Filing

end Postings

end RecordQuery
