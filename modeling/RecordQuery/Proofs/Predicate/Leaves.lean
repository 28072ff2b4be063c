import Mathlib.Data.List.Lex
import RecordQuery.Proofs.Predicate

/-!
# Leaves from left to right

A leaf stands at a position, which numbers the children on the way down to it. The lexicographic order
of the positions is the order of the leaves from left to right. The list of fields holds each field
once, in the order of the first leaves that test it.
-/

namespace RecordQuery

namespace Predicate

/-! ### Positions -/

/-- The children of a node. -/
def operands : Predicate → List Predicate
  | equal _ _ => []
  | and children => children
  | or children => children

/-- The subtree at a position, counting the children of each node from zero. -/
def subtreeAt? (p : Predicate) : List Nat → Option Predicate
  | [] => some p
  | i :: position => p.operands[i]?.bind fun child => child.subtreeAt? position

/-- Whether an equality test of the field stands at a position. -/
def LeafAt (p : Predicate) (position : List Nat) (field : String) : Prop :=
  ∃ value, p.subtreeAt? position = some (equal field value)

theorem leafAt_cons_iff {p : Predicate} {i : Nat} {position : List Nat} {field : String} :
    p.LeafAt (i :: position) field ↔
      ∃ child, p.operands[i]? = some child ∧ child.LeafAt position field := by
  simp only [LeafAt, subtreeAt?, Option.bind_eq_some_iff]
  constructor
  · rintro ⟨value, child, found, leaf⟩
    exact ⟨child, found, value, leaf⟩
  · rintro ⟨child, found, value, leaf⟩
    exact ⟨value, child, found, leaf⟩

mutual

/-- The leaves of a tree from left to right, each by its position and its field. -/
def leaves : Predicate → List (List Nat × String)
  | equal field _ => [([], field)]
  | and children => leavesFrom 0 children
  | or children => leavesFrom 0 children

/-- The leaves of a list of trees, of which the first one has the given number. -/
def leavesFrom (n : Nat) : List Predicate → List (List Nat × String)
  | [] => []
  | child :: rest => (leaves child).map (Prod.map (List.cons n) id) ++ leavesFrom (n + 1) rest

end

theorem mem_leavesFrom {leaf : List Nat × String} {children : List Predicate} {n : Nat} :
    leaf ∈ leavesFrom n children ↔ ∃ i child position, children[i]? = some child ∧
      (position, leaf.2) ∈ child.leaves ∧ leaf.1 = (n + i) :: position := by
  induction children generalizing n with
  | nil => simp [leavesFrom]
  | cons child rest ih =>
      rw [leavesFrom, List.mem_append, ih]
      constructor
      · rintro (own | ⟨i, other, position, found, mem, place⟩)
        · obtain ⟨⟨position, field⟩, mem, rfl⟩ := List.mem_map.mp own
          exact ⟨0, child, position, rfl, mem, rfl⟩
        · refine ⟨i + 1, other, position, found, mem, ?_⟩
          rw [place, Nat.add_assoc, Nat.add_comm 1]
      · rintro ⟨i, other, position, found, mem, place⟩
        cases i with
        | zero =>
            obtain rfl : child = other := Option.some.inj found
            exact .inl (List.mem_map.mpr ⟨_, mem, Prod.ext place.symm rfl⟩)
        | succ i =>
            refine .inr ⟨i, other, position, found, mem, ?_⟩
            rw [place, Nat.add_assoc, Nat.add_comm 1]

/-- Exactly the leaves are listed, each under its position. -/
theorem mem_leaves_iff {position : List Nat} {field : String} {p : Predicate} :
    (position, field) ∈ p.leaves ↔ p.LeafAt position field := by
  -- A child is read at a shorter position, so no induction on the nested tree is needed.
  induction position generalizing p with
  | nil => cases p <;> simp [leaves, LeafAt, subtreeAt?, mem_leavesFrom, eq_comm]
  | cons i position ih =>
      rw [leafAt_cons_iff]
      cases p with
      | equal => simp [leaves, operands]
      | and children => simp [leaves, operands, mem_leavesFrom, ih]
      | or children => simp [leaves, operands, mem_leavesFrom, ih]

mutual

/-- The leaves are listed in the order of their positions. -/
theorem leaves_ascending : ∀ p : Predicate, p.leaves.Pairwise fun leaf other => leaf.1 < other.1
  | equal _ _ => List.pairwise_singleton _ _
  | and children => leavesFrom_ascending 0 children
  | or children => leavesFrom_ascending 0 children

theorem leavesFrom_ascending : ∀ (n : Nat) (children : List Predicate),
    (leavesFrom n children).Pairwise fun leaf other => leaf.1 < other.1
  | n, [] => .nil
  | n, child :: rest => by
      apply List.pairwise_append.mpr
      refine ⟨?_, leavesFrom_ascending (n + 1) rest, ?_⟩
      · apply List.pairwise_map.mpr
        exact (leaves_ascending child).imp fun less => List.cons_lt_cons_iff.mpr (.inr ⟨rfl, less⟩)
      · intro leaf own other mem
        obtain ⟨inside, -, rfl⟩ := List.mem_map.mp own
        obtain ⟨i, -, position, -, -, place⟩ := mem_leavesFrom.mp mem
        have later : n < n + 1 + i := by omega
        rw [place]
        exact List.cons_lt_cons_iff.mpr (.inl later)

end

mutual

theorem map_snd_leaves : ∀ p : Predicate, p.leaves.map Prod.snd = p.leafFields
  | equal _ _ => rfl
  | and children => map_snd_leavesFrom 0 children
  | or children => map_snd_leavesFrom 0 children

theorem map_snd_leavesFrom : ∀ (n : Nat) (children : List Predicate),
    (leavesFrom n children).map Prod.snd = leafFieldsAll children
  | _, [] => rfl
  | n, child :: rest => by
      rw [leavesFrom, List.map_append, List.map_map, leafFieldsAll, ← map_snd_leaves child,
        map_snd_leavesFrom (n + 1) rest]
      rfl

end

/-! ### First leaves -/

section First

variable {α : Type} [DecidableEq α]

/-- An item is met before another one exactly if it is the first item that is one of the two. -/
theorem idxOf_lt_idxOf_iff_find? {xs : List α} {x y : α} :
    xs.idxOf x < xs.idxOf y ↔ x ≠ y ∧ xs.find? (fun z => z = x ∨ z = y) = some x := by
  induction xs with
  | nil => simp
  | cons z rest ih =>
      by_cases own : z = x
      · subst own
        by_cases same : z = y
        · simp [same]
        · simp [same, List.idxOf_cons_ne]
      · by_cases found : z = y
        · subst found
          simp [own]
        · rw [List.idxOf_cons_ne _ own, List.idxOf_cons_ne _ found, Nat.succ_lt_succ_iff, ih]
          simp [own, found]

/-- Erasing repetitions keeps the order in which items are first met. -/
theorem idxOf_lt_idxOf_eraseDups {xs : List α} {x y : α} :
    xs.eraseDups.idxOf x < xs.eraseDups.idxOf y ↔ xs.idxOf x < xs.idxOf y := by
  rw [idxOf_lt_idxOf_iff_find?, idxOf_lt_idxOf_iff_find?, find?_eraseDups]

end First

/-- In a list of leaves in the order of their positions, a field is met before another one exactly if
some leaf of it stands before all leaves of the other. -/
theorem idxOf_lt_idxOf_map_snd {leaves : List (List Nat × String)} {field other : String}
    (ascending : leaves.Pairwise fun leaf other => leaf.1 < other.1) :
    (leaves.map Prod.snd).idxOf field < (leaves.map Prod.snd).idxOf other ↔
      ∃ position, (position, field) ∈ leaves ∧
        ∀ further, (further, other) ∈ leaves → position < further := by
  by_cases same : field = other
  · subst same
    constructor
    · intro less
      exact absurd less (Nat.lt_irrefl _)
    · rintro ⟨position, mem, before⟩
      exact absurd (before position mem) (List.lt_irrefl position)
  induction leaves with
  | nil => simp
  | cons leaf rest ih =>
      obtain ⟨place, tested⟩ := leaf
      obtain ⟨first, later⟩ := List.pairwise_cons.mp ascending
      rw [List.map_cons]
      by_cases own : tested = field
      · -- The first leaf is one of the field, and all others stand behind it.
        subst own
        rw [List.idxOf_cons_self, List.idxOf_cons_ne _ same]
        refine ⟨fun _ => ⟨place, List.mem_cons_self, fun further mem => ?_⟩, fun _ => Nat.succ_pos _⟩
        rcases List.mem_cons.mp mem with head | mem
        · exact absurd (congrArg Prod.snd head).symm same
        · exact first _ mem
      · by_cases found : tested = other
        · -- The first leaf is one of the other field, and none stands before it.
          subst found
          rw [List.idxOf_cons_self]
          refine ⟨fun less => absurd less (Nat.not_lt_zero _), ?_⟩
          rintro ⟨position, mem, before⟩
          rcases List.mem_cons.mp mem with head | mem
          · exact absurd (congrArg Prod.snd head) same
          · exact absurd (before place List.mem_cons_self) (List.lt_asymm (first _ mem))
        · rw [List.idxOf_cons_ne _ own, List.idxOf_cons_ne _ found, Nat.succ_lt_succ_iff, ih later]
          simp [Ne.symm own, Ne.symm found]

/-- The leaves are listed from left to right, and the list of fields is that of the leaves without what
repeats an earlier field. So no field is listed twice, the listed fields are those that a leaf at some
depth tests, and a field comes before another one exactly if some leaf of it stands before all leaves of
the other. -/
theorem fields_by_first_leaves (p : Predicate) :
    (p.leaves.Pairwise fun leaf other => leaf.1 < other.1) ∧
    (∀ position field, (position, field) ∈ p.leaves ↔ p.LeafAt position field) ∧
    p.fields = (p.leaves.map Prod.snd).eraseDups ∧
    p.fields.Nodup ∧
    (∀ field, field ∈ p.fields ↔ ∃ position, p.LeafAt position field) ∧
    ∀ field other, p.fields.idxOf field < p.fields.idxOf other ↔
      ∃ position, p.LeafAt position field ∧
        ∀ further, p.LeafAt further other → position < further := by
  have listed : p.fields = (p.leaves.map Prod.snd).eraseDups := by
    rw [map_snd_leaves, fields_eq_eraseDups]
  refine ⟨leaves_ascending p, fun _ _ => mem_leaves_iff, listed, ?_, fun field => ?_,
    fun field other => ?_⟩
  · rw [listed]
    exact nodup_eraseDups _
  · simp [listed, mem_leaves_iff]
  · rw [listed, idxOf_lt_idxOf_eraseDups, idxOf_lt_idxOf_map_snd (leaves_ascending p)]
    simp only [mem_leaves_iff]

example : (and [or [equal "language" "Kotlin", equal "language" "Java"],
    equal "framework" "SpringBoot"]).fields = ["language", "framework"] := by decide

end Predicate

end RecordQuery
