import RecordQuery.Index.RecordIndex
import RecordQuery.Proofs.Attribute
import RecordQuery.Proofs.Predicate
import RecordQuery.Proofs.Index.Postings

/-!
# Evaluation on posting lists

The merges of posting lists follow the predicate, so that a record is in the result exactly if the
predicate holds by the tests whose lists it is in. On an index that is built for all fields of the
predicate these tests compare the values of the record with the literals.
-/

namespace RecordQuery

namespace Record

/-- Whether a record satisfies a predicate, under the given kinds of fields. -/
def satisfies (kinds : String → AttributeKind) (r : Record) (p : Predicate) : Bool :=
  p.holds fun field literal => (r.valueOf field).meets (kinds field) literal

end Record

namespace RecordIndex

open IdList

section Matching

variable {index : RecordIndex} {registry : AttributeRegistry}

/-- Whether the lists of all equality tests are ascending and hold stored records only. -/
def Listed (index : RecordIndex) (registry : AttributeRegistry) : Prop :=
  ∀ field value, Ascending (index.matching registry (.equal field value)) ∧
    ∀ i ∈ index.matching registry (.equal field value), i < index.size

/-- The equality tests that a record passes by the lists that it is in. -/
def passes (index : RecordIndex) (registry : AttributeRegistry) (i : RecordId) :
    String → String → Bool :=
  fun field value => decide (i ∈ index.matching registry (.equal field value))

mutual

/-- The result of a predicate is ascending and holds the stored records for which it is true. -/
theorem matching_spec (listed : Listed index registry) : ∀ p : Predicate,
    Ascending (index.matching registry p) ∧ ∀ i, i ∈ index.matching registry p ↔
      i < index.size ∧ p.holds (index.passes registry i) = true
  | .equal field value => by
      obtain ⟨ascending, stored⟩ := listed field value
      refine ⟨ascending, fun i => ?_⟩
      rw [Predicate.holds, passes, decide_eq_true_eq]
      exact ⟨fun mem => ⟨stored i mem, mem⟩, And.right⟩
  | .and [] => by
      rw [matching]
      refine ⟨List.pairwise_lt_range, fun i => ?_⟩
      simp [allIds, Predicate.holds, Predicate.holdsAll]
  | .and (child :: rest) => by
      obtain ⟨ascending, first⟩ := matching_spec listed child
      obtain ⟨result, others⟩ := narrow_spec listed rest _ ascending fun i mem =>
        ((first i).mp mem).1
      rw [matching]
      refine ⟨result, fun i => ?_⟩
      rw [others, first, Predicate.holds, Predicate.holdsAll, Bool.and_eq_true, and_assoc]
  | .or children => by
      obtain ⟨result, members⟩ := widen_spec listed children _ List.Pairwise.nil
      rw [matching]
      refine ⟨result, fun i => ?_⟩
      rw [members, Predicate.holds]
      simp

theorem narrow_spec (listed : Listed index registry) : ∀ (children : List Predicate)
    (found : List RecordId), Ascending found → (∀ i ∈ found, i < index.size) →
    Ascending (index.narrow registry found children) ∧
      ∀ i, i ∈ index.narrow registry found children ↔
        i ∈ found ∧ Predicate.holdsAll (index.passes registry i) children = true
  | [], found, ascending, _ => by
      rw [narrow]
      exact ⟨ascending, fun i => by simp [Predicate.holdsAll]⟩
  | child :: rest, found, ascending, stored => by
      rw [narrow]
      by_cases empty : found.isEmpty = true
      · rw [if_pos empty]
        refine ⟨ascending, fun i => ?_⟩
        simp [List.isEmpty_iff.mp empty]
      · rw [if_neg empty]
        obtain ⟨ascending', first⟩ := matching_spec listed child
        obtain ⟨result, others⟩ := narrow_spec listed rest _
          (ascending_intersect ascending ascending') fun i mem =>
            stored i ((mem_intersect ascending ascending').mp mem).1
        refine ⟨result, fun i => ?_⟩
        rw [others, mem_intersect ascending ascending', first, Predicate.holdsAll,
          Bool.and_eq_true, and_assoc]
        apply and_congr_right
        intro mem
        rw [and_assoc]
        exact and_iff_right (stored i mem)

theorem widen_spec (listed : Listed index registry) : ∀ (children : List Predicate)
    (found : List RecordId), Ascending found →
    Ascending (index.widen registry found children) ∧
      ∀ i, i ∈ index.widen registry found children ↔
        i ∈ found ∨ (i < index.size ∧ Predicate.holdsAny (index.passes registry i) children = true)
  | [], found, ascending => by
      rw [widen]
      exact ⟨ascending, fun i => by simp [Predicate.holdsAny]⟩
  | child :: rest, found, ascending => by
      obtain ⟨ascending', first⟩ := matching_spec listed child
      obtain ⟨result, others⟩ := widen_spec listed rest _ (ascending_union ascending ascending')
      rw [widen]
      refine ⟨result, fun i => ?_⟩
      rw [others, mem_union, first, Predicate.holdsAny, Bool.or_eq_true, or_assoc,
        ← and_or_left]

end

end Matching

section Building

variable {policy : MixedTypePolicy} {records : List Record}

/-- Whether the posting lists of the given attributes have been put into a map, and nothing else. -/
structure Filed (policy : MixedTypePolicy) (records : List Record) (before : SortedMap Postings)
    (done : List Attribute) (map : SortedMap Postings) : Prop where
  own : ∀ a ∈ done, ∃ postings, Postings.ofRecords policy a records = .ok postings ∧
    map.get? a.name = some postings
  others : ∀ field, (∀ a ∈ done, field ≠ a.name) → map.get? field = before.get? field

/-- One more attribute in front of the others, none of which bears its name. -/
theorem Filed.cons {before map : SortedMap Postings} {a : Attribute} {done : List Attribute}
    {postings : Postings} (filed : Postings.ofRecords policy a records = .ok postings)
    (h : Filed policy records (before.insert a.name postings) done map)
    (first : ∀ b ∈ done, a.name ≠ b.name) : Filed policy records before (a :: done) map where
  own := by
    intro b mem
    rcases List.mem_cons.mp mem with rfl | mem
    · refine ⟨postings, filed, ?_⟩
      rw [h.others b.name first, SortedMap.get?_insert, if_pos rfl]
    · exact h.own b mem
  others := by
    intro field other
    rw [h.others field fun b mem => other b (List.mem_cons_of_mem _ mem), SortedMap.get?_insert,
      if_neg (other a (List.mem_cons_self ..))]

/-- The attributes are gone through up to the first one that fails, and the lists of those in front of
it are in place. -/
theorem buildPostings_spec {attributes : List Attribute} {before map : SortedMap Postings}
    {outcome : Except EvalError Unit}
    (ascending : attributes.Pairwise fun a b => a.name < b.name)
    (result : buildPostings policy records before attributes = (map, outcome)) :
    ∃ done pending, attributes = done ++ pending ∧ Filed policy records before done map ∧
      (pending = [] ∧ outcome = .ok () ∨
        ∃ a rest e, pending = a :: rest ∧ Postings.ofRecords policy a records = .error e ∧
          outcome = .error e) := by
  induction attributes generalizing before with
  | nil =>
      obtain ⟨rfl, rfl⟩ := Prod.mk.inj result
      refine ⟨[], [], rfl, ⟨?_, fun _ _ => rfl⟩, .inl ⟨rfl, rfl⟩⟩
      exact fun a mem => absurd mem List.not_mem_nil
  | cons a rest ih =>
      obtain ⟨first, others⟩ := List.pairwise_cons.mp ascending
      unfold buildPostings at result
      cases filed : Postings.ofRecords policy a records with
      | error e =>
          rw [filed] at result
          obtain ⟨rfl, rfl⟩ := Prod.mk.inj result
          refine ⟨[], a :: rest, rfl, ⟨?_, fun _ _ => rfl⟩, .inr ⟨a, rest, e, rfl, filed, rfl⟩⟩
          exact fun a mem => absurd mem List.not_mem_nil
      | ok postings =>
          rw [filed] at result
          obtain ⟨done, pending, rfl, places, ending⟩ := ih others result
          refine ⟨a :: done, pending, rfl, .cons filed places fun b mem => ?_, ending⟩
          exact String.ne_of_lt (first b (List.mem_append_left pending mem))

theorem exists_buildPostings_textFallback (records : List Record) (attributes : List Attribute)
    (built : SortedMap Postings) :
    ∃ map, buildPostings .textFallback records built attributes = (map, .ok ()) := by
  induction attributes generalizing built with
  | nil => exact ⟨built, rfl⟩
  | cons a rest ih =>
      obtain ⟨postings, filed⟩ := Postings.exists_ofRecords_textFallback a records
      rw [buildPostings, filed]
      exact ih ..

end Building

/-- Whether the index has the posting lists of all its records for every attribute of a registry. -/
def Indexed (index : RecordIndex) (registry : AttributeRegistry) (policy : MixedTypePolicy) : Prop :=
  ∀ field a, registry.get? field = some a →
    ∃ postings, Postings.ofRecords policy a index.records = .ok postings ∧
      index.postings.get? field = some postings

/-- A successful build leaves the records and indexes them for every attribute. -/
theorem indexed_of_indexAttributes {index built : RecordIndex} {registry : AttributeRegistry}
    {policy : MixedTypePolicy} (named : registry.WellNamed)
    (success : index.indexAttributes registry policy = (built, .ok ())) :
    built.records = index.records ∧ built.Indexed registry policy := by
  unfold indexAttributes at success
  cases done : buildPostings policy index.records SortedMap.empty registry.toList with
  | mk map outcome =>
      rw [done] at success
      obtain ⟨rfl, rfl⟩ := Prod.mk.inj success
      refine ⟨rfl, fun field a found => ?_⟩
      have own := named field a found
      have mem : a ∈ registry.toList := named.mem_toList_iff.mpr (own ▸ found)
      obtain ⟨handled, pending, whole, filed, ⟨rfl, -⟩ | ⟨_, _, _, -, -, ⟨⟩⟩⟩ :=
        buildPostings_spec named.ascending done
      rw [← own]
      rw [whole, List.append_nil] at mem
      exact filed.own a mem

theorem exists_indexAttributes_textFallback (index : RecordIndex)
    (registry : AttributeRegistry) :
    ∃ built, index.indexAttributes registry .textFallback = (built, .ok ()) := by
  obtain ⟨map, done⟩ :=
    exists_buildPostings_textFallback index.records registry.toList SortedMap.empty
  rw [indexAttributes, done]
  exact ⟨_, rfl⟩

theorem evaluate_eq_ok_iff {index : RecordIndex} {registry : AttributeRegistry} {p : Predicate}
    {ids : List RecordId} :
    index.evaluate p registry = .ok ids ↔
      (∀ field ∈ p.leafFields, registry.contains field = true) ∧
        ids = index.matching registry p := by
  unfold evaluate
  cases missing : p.fields.find? fun field => !registry.contains field with
  | some field =>
      have unknown := List.find?_some missing
      have mem := Predicate.mem_fields.mp (List.mem_of_find?_eq_some missing)
      constructor
      · rintro ⟨⟩
      · rintro ⟨known, -⟩
        simp [known field mem] at unknown
  | none =>
      have known : ∀ field ∈ p.leafFields, registry.contains field = true := by
        intro field mem
        simpa using List.find?_eq_none.mp missing field (Predicate.mem_fields.mpr mem)
      constructor
      · rintro ⟨⟩
        exact ⟨known, rfl⟩
      · rintro ⟨-, rfl⟩
        rfl

/-- An evaluation fails with the leftmost leaf whose field has no attribute. -/
theorem evaluate_eq_error_iff {index : RecordIndex} {registry : AttributeRegistry} {p : Predicate}
    {e : EvalError} :
    index.evaluate p registry = .error e ↔
      ∃ field, p.FirstUnknown (fun field => registry.contains field = true) field ∧
        e = .unknownAttribute field := by
  simp only [← Predicate.find?_fields_eq_some_iff]
  unfold evaluate
  cases p.fields.find? fun field => !registry.contains field with
  | none => simp
  | some field => simp [eq_comm]

namespace Indexed

variable {index : RecordIndex} {registry : AttributeRegistry} {policy : MixedTypePolicy}

/-- The list of an equality test is ascending and holds the records whose value has the key of the
literal. -/
theorem mem_matching_equal (indexed : index.Indexed registry policy) {field : String}
    {a : Attribute} (found : registry.get? field = some a) (literal : String) :
    Ascending (index.matching registry (.equal field literal)) ∧
      ∀ i, i ∈ index.matching registry (.equal field literal) ↔
        ∃ r, index.records[i]? = some r ∧
          IndexKey.keyOf a r = IndexKey.forLiteral a literal := by
  obtain ⟨postings, filed, listed⟩ := indexed field a found
  rw [matching]
  simp only [found, listed]
  refine ⟨Postings.ascending_find_ofRecords filed _, fun i => ?_⟩
  rw [Postings.mem_find_ofRecords filed]
  simp only [eq_comm]

theorem listed (indexed : index.Indexed registry policy) : index.Listed registry := by
  intro field literal
  cases found : registry.get? field with
  | none =>
      rw [matching]
      simp [found]
  | some a =>
      obtain ⟨ascending, members⟩ := indexed.mem_matching_equal found literal
      refine ⟨ascending, fun i mem => ?_⟩
      obtain ⟨r, stored, -⟩ := (members i).mp mem
      exact (List.getElem?_eq_some_iff.mp stored).1

/-- The evaluation gives the records that satisfy the predicate, by ascending identifier. -/
theorem evaluate_spec (indexed : index.Indexed registry policy) (named : registry.WellNamed)
    (finite : ∀ r ∈ index.records, r.Finite) {kinds : String → AttributeKind}
    (classified : ∀ field a, registry.get? field = some a → a.kind = kinds field)
    {p : Predicate} {ids : List RecordId} (evaluated : index.evaluate p registry = .ok ids) :
    Ascending ids ∧
      ∀ i, i ∈ ids ↔ ∃ r, index.records[i]? = some r ∧ r.satisfies kinds p = true := by
  obtain ⟨known, rfl⟩ := evaluate_eq_ok_iff.mp evaluated
  obtain ⟨ascending, members⟩ := matching_spec indexed.listed p
  have agree (i : RecordId) (r : Record) (stored : index.records[i]? = some r) :
      p.holds (index.passes registry i) = r.satisfies kinds p := by
    apply Predicate.holds_congr
    intro field mem literal
    obtain ⟨a, found⟩ := Option.isSome_iff_exists.mp (known field mem)
    have own := named field a found
    rw [passes, Bool.eq_iff_iff, decide_eq_true_eq, (indexed.mem_matching_equal found literal).2,
      ← classified field a found, ← own,
      ← IndexKey.keyOf_eq_forLiteral_iff (finite r (List.mem_of_getElem? stored)) literal, stored]
    simp
  refine ⟨ascending, fun i => ?_⟩
  rw [members]
  constructor
  · rintro ⟨bound, holds⟩
    have stored : index.records[i]? = some index.records[i] := List.getElem?_eq_getElem bound
    exact ⟨_, stored, agree i _ stored ▸ holds⟩
  · rintro ⟨r, stored, holds⟩
    exact ⟨(List.getElem?_eq_some_iff.mp stored).1, (agree i r stored).symm ▸ holds⟩

end Indexed

end RecordIndex

end RecordQuery
