import Mathlib.Data.Finset.Dedup
import Mathlib.Data.Finset.Card
import RecordQuery.Proofs.Engine.Groups

/-!
# Histories of origins

Origins may be noted in any order, for identifiers with gaps and repeats, and a failure does not end the
sequence. What is kept of a record, what is counted and what fails is decided by the calls that were made,
and for a record by its own calls alone.
-/

namespace RecordQuery

variable {α : Type}

/-- A call that notes an object as the origin of a record. -/
structure Insertion (α : Type) where
  id : RecordId
  origin : Origin α

namespace Origins

/-- The origins after a call, and whether the call has failed. -/
def call (origins : Origins α) (insertion : Insertion α) : Origins α × Except EvalError Unit :=
  origins.insert insertion.id insertion.origin.position insertion.origin.object

/-- The origins after a sequence of calls. A call that fails is followed by the others. -/
def replay (policy : DuplicatePolicy) (history : List (Insertion α)) : Origins α :=
  history.foldl (fun origins insertion => (origins.call insertion).1) (empty policy)

end Origins

namespace Insertion

/-- The origins that were noted for a record, in the order of the calls. -/
def noted (history : List (Insertion α)) (id : RecordId) : List (Origin α) :=
  (history.filter fun insertion => insertion.id = id).map Insertion.origin

/-- The identifiers of the calls. -/
def ids (history : List (Insertion α)) : List RecordId := history.map Insertion.id

/-- The greatest identifier and one more, or zero where there is no call. -/
def span (history : List (Insertion α)) : Nat := ((ids history).max?.map (· + 1)).getD 0

theorem noted_concat (history : List (Insertion α)) (insertion : Insertion α) (id : RecordId) :
    noted (history ++ [insertion]) id =
      if id = insertion.id then noted history id ++ [insertion.origin] else noted history id := by
  rw [noted, noted, List.filter_append, List.map_append]
  by_cases own : id = insertion.id
  · simp [own]
  · simp [own, Ne.symm own]

theorem noted_eq_nil_iff {history : List (Insertion α)} {id : RecordId} :
    noted history id = [] ↔ id ∉ ids history := by
  simp [noted, ids]

theorem span_concat (history : List (Insertion α)) (insertion : Insertion α) :
    span (history ++ [insertion]) = max (span history) (insertion.id + 1) := by
  rw [span, span, ids, List.map_append]
  change (((ids history) ++ [insertion.id]).max?.map (· + 1)).getD 0 = _
  cases ids history with
  | nil => simp
  | cons first more =>
      rw [List.cons_append, List.max?_cons', List.max?_cons', List.foldl_append]
      exact (Nat.succ_max_succ _ _).symm

theorem card_ids_concat (history : List (Insertion α)) (insertion : Insertion α) :
    (ids (history ++ [insertion])).toFinset.card =
      if insertion.id ∈ ids history then (ids history).toFinset.card
      else (ids history).toFinset.card + 1 := by
  have last : (ids (history ++ [insertion])).toFinset = insert insertion.id (ids history).toFinset := by
    rw [ids, List.map_append, List.toFinset_append, Finset.union_comm]
    rfl
  rw [last, Finset.card_insert_eq_ite]
  simp only [List.mem_toFinset]

end Insertion

open Insertion

namespace Origins

/-- Whether origins are what a policy makes of a history of calls. -/
structure Recounts (policy : DuplicatePolicy) (history : List (Insertion α)) (origins : Origins α) :
    Prop where
  policy_eq : origins.policy = policy
  slot_eq : ∀ id, origins.slot id = policy.keeps (noted history id)
  collisions_eq : origins.collisions + (ids history).toFinset.card = history.length
  size_eq : origins.size = span history

theorem recounts_empty (policy : DuplicatePolicy) : Recounts (α := α) policy [] (empty policy) where
  policy_eq := rfl
  slot_eq _ := by cases policy <;> rfl
  collisions_eq := rfl
  size_eq := rfl

/-- One more call, whether it fails or not. -/
theorem Recounts.step {policy : DuplicatePolicy} {history : List (Insertion α)}
    {origins : Origins α} (h : Recounts policy history origins) (insertion : Insertion α) :
    Recounts policy (history ++ [insertion]) (origins.call insertion).1 where
  policy_eq := by rw [call, policy_insert, h.policy_eq]
  slot_eq id := by
    rw [call, slot_insert, noted_concat, h.policy_eq]
    by_cases own : id = insertion.id
    · subst own
      rw [if_pos rfl, if_pos rfl]
      have extended := DuplicatePolicy.map_extended (f := id) insertion.origin
        ((List.map_id _).trans (h.slot_eq insertion.id))
      rwa [List.map_id] at extended
    · rw [if_neg own, if_neg own, h.slot_eq]
  collisions_eq := by
    have before := h.collisions_eq
    have free : origins.slot insertion.id = [] ↔ insertion.id ∉ ids history := by
      rw [h.slot_eq, DuplicatePolicy.keeps_eq_nil_iff, noted_eq_nil_iff]
    rw [call, collisions_insert, card_ids_concat, List.length_append, List.length_singleton]
    by_cases known : insertion.id ∈ ids history
    · rw [if_neg (not_not.mpr known ∘ free.mp), if_pos known]
      omega
    · rw [if_pos (free.mpr known), if_neg known]
      omega
  size_eq := by rw [call, size_insert, h.size_eq, span_concat]

/-- The origins after a sequence of calls are what the policy makes of it. -/
theorem recounts_replay (policy : DuplicatePolicy) (history : List (Insertion α)) :
    Recounts policy history (replay policy history) := by
  induction history using List.reverseRecOn with
  | nil => exact recounts_empty policy
  | append_singleton history insertion ih =>
      rw [replay, List.foldl_append]
      exact ih.step insertion

/-- After any sequence of calls every record has the objects that the policy keeps of those noted for it,
and none if it was never noted. A call of another record changes nothing of it. A call fails exactly under
the rejecting policy for a record that was noted before, and tells the position of its first origin; it
changes nothing that is kept. Every call but the first one of each record is counted, failures included,
and the size is one more than the greatest identifier. -/
theorem replay_spec (policy : DuplicatePolicy) (history : List (Insertion α)) :
    (∀ id, (replay policy history).resolve id =
      policy.keeps ((noted history id).map Origin.object)) ∧
    (∀ id, (replay policy history).resolve id = [] ↔ id ∉ ids history) ∧
    (∀ insertion id, id ≠ insertion.id →
      ((replay policy history).call insertion).1.resolve id = (replay policy history).resolve id) ∧
    (∀ insertion e, ((replay policy history).call insertion).2 = .error e ↔
      policy = .reject ∧ ∃ first, (noted history insertion.id).head? = some first ∧
        e = .duplicateRecord first.position insertion.origin.position) ∧
    (∀ insertion e, ((replay policy history).call insertion).2 = .error e → ∀ id,
      ((replay policy history).call insertion).1.resolve id = (replay policy history).resolve id) ∧
    (replay policy history).collisions + (ids history).toFinset.card = history.length ∧
    (replay policy history).size = span history := by
  have h := recounts_replay policy history
  have resolved (id : RecordId) : (replay policy history).resolve id =
      policy.keeps ((noted history id).map Origin.object) := by
    rw [resolve, h.slot_eq, DuplicatePolicy.map_keeps]
  have other (insertion : Insertion α) (id : RecordId) (differs : id ≠ insertion.id) :
      ((replay policy history).call insertion).1.resolve id =
        (replay policy history).resolve id := by
    rw [resolve, call, slot_insert, if_neg differs, resolve]
  have fails (insertion : Insertion α) (e : EvalError) :
      ((replay policy history).call insertion).2 = .error e ↔
        policy = .reject ∧ ∃ first, (noted history insertion.id).head? = some first ∧
          e = .duplicateRecord first.position insertion.origin.position := by
    rw [call, insert_eq_error_iff, h.policy_eq, h.slot_eq]
    apply and_congr_right
    rintro rfl
    cases noted history insertion.id <;> exact Iff.rfl
  refine ⟨resolved, fun id => ?_, other, fails, ?_, h.collisions_eq, h.size_eq⟩
  · rw [resolved, DuplicatePolicy.keeps_eq_nil_iff, List.map_eq_nil_iff, noted_eq_nil_iff]
  · intro insertion e failed id
    by_cases own : id = insertion.id
    · -- the rejecting policy keeps the first origin, and there is one
      subst own
      obtain ⟨rfl, first, head, -⟩ := (fails insertion e).mp failed
      have kept : (replay .reject history).slot insertion.id = [first] := by
        rw [h.slot_eq, DuplicatePolicy.keeps, head]
        rfl
      rw [resolve, call, slot_insert, if_pos rfl, h.policy_eq, kept, resolve, kept]
      rfl
    · exact other insertion id own

/-- Three calls, two of them of the same record, behind a gap. -/
def gapAndRepeat : List (Insertion Char) := [⟨2, 0, 'a'⟩, ⟨0, 1, 'b'⟩, ⟨2, 2, 'c'⟩]

/-- Under the rejecting policy the last of the calls has failed and is counted, a further one fails as
well, and the record in the gap has no objects before and after. -/
theorem replay_spec_of_gapAndRepeat :
    (replay .reject gapAndRepeat).resolve 2 = ['a'] ∧
    (replay .reject gapAndRepeat).resolve 1 = [] ∧
    (replay .reject gapAndRepeat).collisions = 1 ∧ (replay .reject gapAndRepeat).size = 3 ∧
    ((replay .reject gapAndRepeat).call ⟨2, 3, 'd'⟩).2 = .error (.duplicateRecord 0 3) ∧
    ((replay .reject gapAndRepeat).call ⟨2, 3, 'd'⟩).1.resolve 2 = ['a'] ∧
    ((replay .reject gapAndRepeat).call ⟨2, 3, 'd'⟩).1.resolve 1 = [] := by
  obtain ⟨resolved, absent, other, fails, unchanged, counted, size⟩ :=
    replay_spec .reject gapAndRepeat
  have held := resolved 2
  have gap := (absent 1).mpr (by decide)
  have failed := (fails ⟨2, 3, 'd'⟩ _).mpr ⟨rfl, ⟨0, 'a'⟩, rfl, rfl⟩
  refine ⟨held, gap, ?_, size, failed, (unchanged _ _ failed 2).trans held,
    (other ⟨2, 3, 'd'⟩ 1 (by decide)).trans gap⟩
  have distinct : (ids gapAndRepeat).toFinset.card = 2 := rfl
  rw [distinct] at counted
  exact Nat.add_right_cancel counted

end Origins

end RecordQuery
