import Mathlib.Order.Lattice
import Mathlib.Data.Set.Basic
import RecordQuery.Proofs.Index.IdList

/-!
# Laws of merges

A strictly ascending list of identifiers stands for the set of its members. Merging such lists is
merging the sets, and different lists stand for different sets. So the merges obey the laws of
intersection and union, and the ascending lists form a distributive lattice.
-/

namespace RecordQuery

namespace IdList

/-- An ascending list is the only one with its members. -/
theorem Ascending.eq_iff {as ids : List RecordId} (h : Ascending as) :
    ids = as ↔ Ascending ids ∧ ∀ id, id ∈ ids ↔ id ∈ as := by
  constructor
  · rintro rfl
    exact ⟨h, fun _ => Iff.rfl⟩
  · rintro ⟨ascending, members⟩
    exact ascending.ext h members

end IdList

/-- A strictly ascending list of identifiers. -/
def AscendingIds := { ids : List RecordId // IdList.Ascending ids }

namespace AscendingIds

/-- The identifiers of a list. -/
def members (ids : AscendingIds) : Set RecordId := {id | id ∈ ids.val}

theorem members_injective : Function.Injective members := by
  intro as bs same
  apply Subtype.ext
  apply as.property.ext bs.property
  intro id
  exact Set.ext_iff.mp same id

instance : LE AscendingIds := ⟨fun as bs => as.members ⊆ bs.members⟩

instance : LT AscendingIds := ⟨fun as bs => as ≤ bs ∧ ¬ bs ≤ as⟩

instance : Min AscendingIds :=
  ⟨fun as bs => ⟨IdList.intersect as.val bs.val,
    IdList.ascending_intersect as.property bs.property⟩⟩

instance : Max AscendingIds :=
  ⟨fun as bs => ⟨IdList.union as.val bs.val, IdList.ascending_union as.property bs.property⟩⟩

theorem members_inf (as bs : AscendingIds) : (as ⊓ bs).members = as.members ∩ bs.members := by
  ext id
  exact IdList.mem_intersect as.property bs.property

theorem members_sup (as bs : AscendingIds) : (as ⊔ bs).members = as.members ∪ bs.members := by
  ext id
  exact IdList.mem_union

/-- The merges are the meet and the join of ascending lists, ordered by inclusion. -/
instance : DistribLattice AscendingIds :=
  members_injective.distribLattice members Iff.rfl Iff.rfl members_sup members_inf

end AscendingIds

namespace IdList

/-- On strictly ascending lists, the merges are the strictly ascending lists of the identifiers in both
and in either list. They are commutative, associative and idempotent, and each distributes over the
other. -/
theorem merges_of_ascending {as bs cs : List RecordId} (h : Ascending as) (h' : Ascending bs)
    (h'' : Ascending cs) :
    (∀ ids, ids = intersect as bs ↔ Ascending ids ∧ ∀ id, id ∈ ids ↔ id ∈ as ∧ id ∈ bs) ∧
    (∀ ids, ids = union as bs ↔ Ascending ids ∧ ∀ id, id ∈ ids ↔ id ∈ as ∨ id ∈ bs) ∧
    intersect as bs = intersect bs as ∧
    union as bs = union bs as ∧
    intersect (intersect as bs) cs = intersect as (intersect bs cs) ∧
    union (union as bs) cs = union as (union bs cs) ∧
    intersect as as = as ∧
    union as as = as ∧
    intersect as (union bs cs) = union (intersect as bs) (intersect as cs) ∧
    union as (intersect bs cs) = intersect (union as bs) (union as cs) := by
  let a : AscendingIds := ⟨as, h⟩
  let b : AscendingIds := ⟨bs, h'⟩
  let c : AscendingIds := ⟨cs, h''⟩
  refine ⟨fun ids => ?_, fun ids => ?_, ?_, ?_, ?_, ?_, ?_, ?_, ?_, ?_⟩
  · rw [(ascending_intersect h h').eq_iff]
    simp only [mem_intersect h h']
  · rw [(ascending_union h h').eq_iff]
    simp only [mem_union]
  · exact congrArg Subtype.val (inf_comm a b)
  · exact congrArg Subtype.val (sup_comm a b)
  · exact congrArg Subtype.val (inf_assoc a b c)
  · exact congrArg Subtype.val (sup_assoc a b c)
  · exact congrArg Subtype.val (inf_idem a)
  · exact congrArg Subtype.val (sup_idem a)
  · exact congrArg Subtype.val (inf_sup_left a b c)
  · exact congrArg Subtype.val (sup_inf_left a b c)

/-- Three lists that overlap in part. -/
theorem merges_of_ascending_of_overlap :
    (Ascending [0, 2, 4] ∧ Ascending [1, 2, 4, 5] ∧ Ascending [0, 5]) ∧
    [2, 4] = intersect [0, 2, 4] [1, 2, 4, 5] ∧
    [0, 1, 2, 4, 5] = union [0, 2, 4] [1, 2, 4, 5] ∧
    union [0, 2, 4] (intersect [1, 2, 4, 5] [0, 5]) =
      intersect (union [0, 2, 4] [1, 2, 4, 5]) (union [0, 2, 4] [0, 5]) := by
  have h : Ascending [0, 2, 4] := by decide
  have h' : Ascending [1, 2, 4, 5] := by decide
  have h'' : Ascending [0, 5] := by decide
  obtain ⟨inBoth, inEither, -, -, -, -, -, -, -, distributes⟩ := merges_of_ascending h h' h''
  refine ⟨⟨h, h', h''⟩, (inBoth _).mpr ⟨by decide, fun id => ?_⟩,
    (inEither _).mpr ⟨by decide, fun id => ?_⟩, distributes⟩
  · grind
  · grind

end IdList

end RecordQuery
