import RecordQuery.Origins

/-!
# Noting origins

What one insertion does to the origins of every record, whichever identifiers have been used before.
-/

namespace RecordQuery

namespace Origins

variable {α : Type}

/-- The origins of a record after one more object: the object alone where there was none. -/
def extended (policy : DuplicatePolicy) (kept : List (Origin α)) (origin : Origin α) :
    List (Origin α) :=
  if kept.isEmpty then [origin] else combine policy kept origin

theorem getElem?_grow (slots : List (List (Origin α))) (id other : RecordId) :
    (grow slots id)[other]?.getD [] = slots[other]?.getD [] := by
  unfold grow
  by_cases bound : other < slots.length
  · rw [List.getElem?_append_left bound]
  · have beyond : slots.length ≤ other := Nat.not_lt.mp bound
    rw [List.getElem?_append_right beyond, List.getElem?_eq_none beyond,
      List.getElem?_replicate]
    split <;> rfl

theorem lt_length_grow (slots : List (List (Origin α))) (id : Nat) :
    id < (grow slots id).length := by
  simp only [grow, List.length_append, List.length_replicate]
  omega

theorem getD_set_grow (slots : List (List (Origin α))) (id other : RecordId)
    (kept : List (Origin α)) :
    ((grow slots id).set id kept)[other]?.getD [] =
      if other = id then kept else slots[other]?.getD [] := by
  by_cases same : other = id
  · subst same
    rw [List.getElem?_set_self (lt_length_grow slots other), if_pos rfl]
    rfl
  · rw [List.getElem?_set_ne (Ne.symm same), if_neg same, getElem?_grow]

variable (origins : Origins α) (id : RecordId) (position : Nat) (object : α)

/-- An insertion extends the origins of its record and leaves those of all others. -/
theorem slot_insert (other : RecordId) :
    (origins.insert id position object).1.slot other =
      if other = id then extended origins.policy (origins.slot id) ⟨position, object⟩
      else origins.slot other := by
  unfold insert
  cases kept : origins.slot id with
  | nil => exact getD_set_grow origins.slots id other _
  | cons first more => exact getD_set_grow origins.slots id other _

@[simp]
theorem policy_insert : (origins.insert id position object).1.policy = origins.policy := by
  unfold insert
  split <;> rfl

/-- An insertion fails only under the rejecting policy, at a record that has an origin. -/
theorem insert_eq_ok_iff :
    (origins.insert id position object).2 = .ok () ↔
      origins.slot id = [] ∨ origins.policy ≠ .reject := by
  unfold insert
  cases kept : origins.slot id with
  | nil => simp
  | cons first more => by_cases rejecting : origins.policy = .reject <;> simp [rejecting]

/-- A failure tells the position of the first origin that is kept, and that of the new object. -/
theorem insert_eq_error_iff {e : EvalError} :
    (origins.insert id position object).2 = .error e ↔
      origins.policy = .reject ∧ ∃ first, (origins.slot id).head? = some first ∧
        e = .duplicateRecord first.position position := by
  unfold insert
  cases origins.slot id with
  | nil => simp
  | cons first more => by_cases rejecting : origins.policy = .reject <;> simp [rejecting, eq_comm]

/-- An object is counted if it meets a record that has an origin. -/
theorem collisions_insert :
    (origins.insert id position object).1.collisions =
      if origins.slot id = [] then origins.collisions else origins.collisions + 1 := by
  unfold insert
  cases origins.slot id with
  | nil => rfl
  | cons first more => rfl

/-- Identifiers without origins are counted up to the greatest one with origins. -/
theorem size_insert :
    (origins.insert id position object).1.size = max origins.size (id + 1) := by
  have grown : (grow origins.slots id).length = max origins.slots.length (id + 1) := by
    simp only [grow, List.length_append, List.length_replicate]
    omega
  unfold insert size
  cases origins.slot id with
  | nil => rw [List.length_set, grown]
  | cons first more => rw [List.length_set, grown]

end Origins

end RecordQuery
