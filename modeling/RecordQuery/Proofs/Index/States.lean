import RecordQuery.Proofs.Index.IdMap
import RecordQuery.Proofs.Index.RecordIndex

/-!
# States of an index

An index takes in records and builds its posting lists in any order, and a build may fail half-way. The
posting lists are at all times those of the last build, over the records that were stored then, so
every state answers a predicate by the records that it had at that time.

## Implementation notes

A state is reached together with a note of its last build. The note is not part of the index: it says
what the index was given, and the invariant ties the posting lists to it.
-/

namespace RecordQuery

namespace AttributeRegistry

/-- The registries that come about by registration. -/
inductive Registered : AttributeRegistry → Prop
  | empty : Registered AttributeRegistry.empty
  | register {registry} (h : Registered registry) (a : Attribute) :
      Registered (registry.register a).1

theorem Registered.wellNamed {registry : AttributeRegistry} (h : Registered registry) :
    registry.WellNamed := by
  induction h with
  | empty =>
      intro field a found
      cases found
  | @register registry h b ih =>
      intro field a found
      rw [get?_register] at found
      by_cases own : field = b.name
      · rw [if_pos own] at found
        rw [← Option.some.inj found, own]
      · rw [if_neg own] at found
        exact ih field a found

end AttributeRegistry

namespace Postings

variable {policy : MixedTypePolicy} {a : Attribute} {records : List Record} {built : Postings}

/-- Where an attribute has posting lists every record has a key. -/
theorem ofRecord_eq_ok_iff_of_mem (filed : ofRecords policy a records = .ok built) {r : Record}
    (mem : r ∈ records) {key : IndexKey} :
    IndexKey.ofRecord policy a r = .ok key ↔ key = IndexKey.keyOf a r := by
  have accepted : refusal? policy a r = none := by
    cases refused : records.findSome? (refusal? policy a) with
    | none => exact List.findSome?_eq_none_iff.mp refused r mem
    | some e =>
        rw [ofRecords_eq_error_iff.mpr refused] at filed
        cases filed
  unfold refusal? at accepted
  cases own : IndexKey.ofRecord policy a r with
  | error e =>
      rw [own] at accepted
      cases accepted
  | ok k =>
      rw [← IndexKey.eq_keyOf_of_ofRecord own, Except.ok.injEq]
      exact eq_comm

/-- Posting lists fail by a mixed type of their own attribute. -/
theorem exists_of_ofRecords_error {e : EvalError} (failed : ofRecords policy a records = .error e) :
    ∃ value, e = .mixedType a.name value := by
  obtain ⟨r, -, refused⟩ := List.exists_of_findSome?_eq_some (ofRecords_eq_error_iff.mp failed)
  unfold refusal? at refused
  cases own : IndexKey.ofRecord policy a r with
  | ok k =>
      rw [own] at refused
      cases refused
  | error e' =>
      rw [own] at refused
      obtain rfl := Option.some.inj refused
      obtain ⟨-, -, -, same⟩ := IndexKey.ofRecord_eq_error_iff.mp own
      exact ⟨_, same⟩

end Postings

namespace RecordIndex

/-- What the posting lists were last built from, and what came of it. -/
structure Build where
  /-- The number of records that were stored then. -/
  size : Nat
  registry : AttributeRegistry
  policy : MixedTypePolicy
  outcome : Except EvalError Unit

/-- The states that an index reaches from the empty one, each with its last build. -/
inductive Reached : RecordIndex → Option Build → Prop
  | empty : Reached RecordIndex.empty none
  | insert {index last} (h : Reached index last) (r : Record) : Reached (index.insert r).1 last
  | indexAttributes {index last} (h : Reached index last) {registry : AttributeRegistry}
      (registered : registry.Registered) (policy : MixedTypePolicy) :
      Reached (index.indexAttributes registry policy).1
        (some ⟨index.size, registry, policy, (index.indexAttributes registry policy).2⟩)

namespace Build

/-- The attribute under which a build has indexed a field. A build that failed at an attribute has
indexed those of the lesser names. -/
def attribute? (build : Build) (field : String) : Option Attribute :=
  match build.outcome with
  | .ok () => build.registry.get? field
  | .error (.mixedType name _) => if field < name then build.registry.get? field else none
  | .error _ => none

/-- Whether the posting lists of an index are those of a build over its first records. -/
structure Describes (build : Build) (index : RecordIndex) : Prop where
  size_le : build.size ≤ index.size
  registered : build.registry.Registered
  built : buildPostings build.policy (index.records.take build.size) SortedMap.empty
    build.registry.toList = (index.postings, build.outcome)

end Build

/-- The attribute under which a field is indexed in a state. -/
def attribute? (last : Option Build) (field : String) : Option Attribute :=
  last.bind fun build => build.attribute? field

/-- Whether an equality test holds of a record in a state: the record was stored at the last build, which
indexed the field, and its key at that time is the key of the literal under the attribute by which is
asked. -/
def meets (index : RecordIndex) (last : Option Build) (registry : AttributeRegistry) (i : RecordId)
    (field literal : String) : Bool :=
  last.any fun build => decide (i < build.size) &&
    (build.attribute? field).any fun a => (registry.get? field).any fun b =>
      index.records[i]?.any fun r =>
        decide (IndexKey.ofRecord build.policy a r = .ok (IndexKey.forLiteral b literal))

/-! ### Insertions -/

/-- In every state that is reached the stored records are different and have their identifiers. -/
theorem Reached.numbered {index : RecordIndex} {last : Option Build} (h : Reached index last) :
    index.Numbered := by
  induction h with
  | empty => exact numbered_empty
  | insert h r ih => exact ih.insert r
  | indexAttributes h registered policy ih => exact ⟨ih.placed, ih.different⟩

/-! ### The last build -/

theorem Build.Describes.insert {build : Build} {index : RecordIndex} (h : build.Describes index)
    (r : Record) : build.Describes (index.insert r).1 := by
  obtain ⟨postings, more, records⟩ := index.insert_frame r
  have bound : build.size ≤ index.records.length := h.size_le
  refine ⟨?_, h.registered, ?_⟩
  · rw [RecordIndex.size, records, List.length_append]
    exact Nat.le_add_right_of_le bound
  · rw [postings, records, List.take_append_of_le_length bound]
    exact h.built

theorem describes_indexAttributes (index : RecordIndex) {registry : AttributeRegistry}
    (registered : registry.Registered) (policy : MixedTypePolicy) :
    Build.Describes ⟨index.size, registry, policy, (index.indexAttributes registry policy).2⟩
      (index.indexAttributes registry policy).1 where
  size_le := Nat.le_refl index.size
  registered := registered
  built := congrArg (fun records => buildPostings policy records SortedMap.empty registry.toList)
    List.take_length

/-- In every state that is reached the posting lists are those of the last build, if there was one. -/
theorem Reached.described {index : RecordIndex} {last : Option Build} (h : Reached index last) :
    match last with
    | none => index.postings = SortedMap.empty
    | some build => build.Describes index := by
  induction h with
  | empty => rfl
  | @insert index last h r ih =>
      cases last with
      | none => exact (index.insert_frame r).1.trans ih
      | some build => exact ih.insert r
  | @indexAttributes index last h registry registered policy ih =>
      exact index.describes_indexAttributes registered policy

namespace Build.Describes

variable {build : Build} {index : RecordIndex}

/-- The attributes that a build has handled, and how it ended. -/
theorem exists_done (h : build.Describes index) :
    ∃ done, Filed build.policy (index.records.take build.size) SortedMap.empty done index.postings ∧
      (∀ field a, build.attribute? field = some a ↔ a ∈ done ∧ a.name = field) ∧
      (build.outcome = .ok () ∨ ∃ a value, build.registry.get? a.name = some a ∧
        build.outcome = .error (.mixedType a.name value)) := by
  have named := h.registered.wellNamed
  have found (field : String) (a : Attribute) :
      build.registry.get? field = some a ↔ a ∈ build.registry.toList ∧ a.name = field := by
    rw [named.mem_toList_iff]
    constructor
    · intro found
      have own := named field a found
      exact ⟨own ▸ found, own⟩
    · rintro ⟨found, rfl⟩
      exact found
  have ascending := named.ascending
  obtain ⟨done, pending, whole, filed, ⟨rfl, success⟩ | ⟨a, rest, e, rfl, refused, failure⟩⟩ :=
    buildPostings_spec ascending h.built
  · refine ⟨done, filed, fun field a => ?_, .inl success⟩
    rw [attribute?, success]
    change build.registry.get? field = some a ↔ _
    rw [found, whole, List.append_nil]
  · obtain ⟨value, rfl⟩ := Postings.exists_of_ofRecords_error refused
    rw [whole, List.pairwise_append, List.pairwise_cons] at ascending
    obtain ⟨-, ⟨behind, -⟩, front⟩ := ascending
    have mem : a ∈ build.registry.toList := by
      rw [whole]
      exact List.mem_append_right done (List.mem_cons_self ..)
    refine ⟨done, filed, fun field b => ?_, .inr ⟨a, value, named.mem_toList_iff.mp mem, failure⟩⟩
    rw [attribute?, failure]
    change (if field < a.name then build.registry.get? field else none) = some b ↔ _
    rw [Option.ite_none_right_eq_some, found, whole, List.mem_append, List.mem_cons]
    constructor
    · rintro ⟨less, handled | rfl | later, rfl⟩
      · exact ⟨handled, rfl⟩
      · exact absurd less (String.lt_irrefl _)
      · exact absurd (String.lt_trans less (behind b later)) (String.lt_irrefl _)
    · rintro ⟨handled, rfl⟩
      exact ⟨front b handled a (List.mem_cons_self ..), .inl handled, rfl⟩

/-- A field has posting lists exactly if the build has indexed it, and then those of its attribute. -/
theorem postings_cases (h : build.Describes index) (field : String) :
    (build.attribute? field = none ∧ index.postings.get? field = none) ∨
      ∃ a postings, build.attribute? field = some a ∧
        Postings.ofRecords build.policy a (index.records.take build.size) = .ok postings ∧
        index.postings.get? field = some postings := by
  obtain ⟨done, filed, handled, -⟩ := h.exists_done
  cases indexed : build.attribute? field with
  | none =>
      refine .inl ⟨rfl, filed.others field fun a mem same => ?_⟩
      rw [(handled field a).mpr ⟨mem, same.symm⟩] at indexed
      cases indexed
  | some a =>
      obtain ⟨mem, rfl⟩ := (handled field a).mp indexed
      obtain ⟨postings, built, placed⟩ := filed.own a mem
      exact .inr ⟨a, postings, rfl, built, placed⟩

end Build.Describes

/-! ### Evaluation in a state -/

section Evaluation

variable {index : RecordIndex} {last : Option Build} {registry : AttributeRegistry}

/-- In every state that is reached the fields with posting lists are those that the last build has
indexed. -/
theorem Reached.postings_cases (h : Reached index last) (field : String) :
    (attribute? last field = none ∧ index.postings.get? field = none) ∨
      ∃ build a postings, last = some build ∧ build.attribute? field = some a ∧
        Postings.ofRecords build.policy a (index.records.take build.size) = .ok postings ∧
        index.postings.get? field = some postings := by
  have described := h.described
  cases last with
  | none =>
      refine .inl ⟨rfl, ?_⟩
      rw [show index.postings = SortedMap.empty from described]
      rfl
  | some build =>
      refine (Build.Describes.postings_cases described field).imp id ?_
      rintro ⟨a, postings, indexed, built, placed⟩
      exact ⟨build, a, postings, rfl, indexed, built, placed⟩

theorem meets_iff {i : RecordId} {field literal : String} :
    index.meets last registry i field literal = true ↔
      ∃ build a b r, last = some build ∧ i < build.size ∧ build.attribute? field = some a ∧
        registry.get? field = some b ∧ index.records[i]? = some r ∧
        IndexKey.ofRecord build.policy a r = .ok (IndexKey.forLiteral b literal) := by
  simp only [meets, Option.any_eq_true, Bool.and_eq_true, decide_eq_true_eq]
  constructor
  · rintro ⟨build, own, bound, a, indexed, b, asked, r, stored, key⟩
    exact ⟨build, a, b, r, own, bound, indexed, asked, stored, key⟩
  · rintro ⟨build, a, b, r, own, bound, indexed, asked, stored, key⟩
    exact ⟨build, own, bound, a, indexed, b, asked, r, stored, key⟩

/-- A test meets stored records only. -/
theorem lt_size_of_meets {i : RecordId} {field literal : String}
    (met : index.meets last registry i field literal = true) : i < index.size := by
  obtain ⟨build, a, b, r, -, -, -, -, stored, -⟩ := meets_iff.mp met
  exact (List.getElem?_eq_some_iff.mp stored).1

/-- The list of an equality test is ascending and holds the records of which the test holds. -/
theorem Reached.matching_equal (h : Reached index last) (registry : AttributeRegistry)
    (field literal : String) :
    IdList.Ascending (index.matching registry (.equal field literal)) ∧
      ∀ i, i ∈ index.matching registry (.equal field literal) ↔
        index.meets last registry i field literal = true := by
  rw [matching]
  simp only [meets_iff]
  cases asked : registry.get? field with
  | none =>
      refine ⟨List.Pairwise.nil, fun i => ?_⟩
      simp
  | some b =>
      obtain ⟨unindexed, unlisted⟩ | ⟨build, a, postings, rfl, indexed, built, listed⟩ :=
        h.postings_cases field
      · rw [unlisted]
        refine ⟨List.Pairwise.nil, fun i => ?_⟩
        constructor
        · exact fun mem => absurd mem List.not_mem_nil
        · rintro ⟨build, a, c, r, rfl, -, indexed, -⟩
          rw [show build.attribute? field = none from unindexed] at indexed
          cases indexed
      · rw [listed]
        refine ⟨Postings.ascending_find_ofRecords built _, fun i => ?_⟩
        have taken (r : Record) : (index.records.take build.size)[i]? = some r ↔
            i < build.size ∧ index.records[i]? = some r := by
          rw [List.getElem?_take, Option.ite_none_right_eq_some]
        rw [Postings.mem_find_ofRecords built]
        constructor
        · rintro ⟨r, found, key⟩
          obtain ⟨bound, stored⟩ := (taken r).mp found
          refine ⟨build, a, b, r, rfl, bound, indexed, rfl, stored, ?_⟩
          exact (Postings.ofRecord_eq_ok_iff_of_mem built (List.mem_of_getElem? found)).mpr key
        · rintro ⟨_, _, _, r, ⟨⟩, bound, indexed', ⟨⟩, stored, key⟩
          rw [indexed] at indexed'
          obtain rfl := Option.some.inj indexed'
          have found := (taken r).mpr ⟨bound, stored⟩
          exact ⟨r, found,
            (Postings.ofRecord_eq_ok_iff_of_mem built (List.mem_of_getElem? found)).mp key⟩

theorem Reached.listed (h : Reached index last) (registry : AttributeRegistry) :
    index.Listed registry := by
  intro field literal
  obtain ⟨ascending, members⟩ := h.matching_equal registry field literal
  exact ⟨ascending, fun i mem => lt_size_of_meets ((members i).mp mem)⟩

/-- In every state that is reached an evaluation gives the stored records of which the predicate holds,
by ascending identifier. -/
theorem Reached.matching_iff (h : Reached index last) (registry : AttributeRegistry)
    (p : Predicate) :
    IdList.Ascending (index.matching registry p) ∧ ∀ i, i ∈ index.matching registry p ↔
      i < index.size ∧ p.holds (index.meets last registry i) = true := by
  obtain ⟨ascending, members⟩ := matching_spec (h.listed registry) p
  refine ⟨ascending, fun i => ?_⟩
  have agree : index.passes registry i = index.meets last registry i := by
    funext field literal
    rw [passes, Bool.eq_iff_iff, decide_eq_true_eq]
    exact (h.matching_equal registry field literal).2 i
  rw [members, agree]

/-- An insertion changes no test of a record that was stored before it. -/
theorem meets_insert {i : RecordId} (bound : i < index.size) (r : Record) :
    (index.insert r).1.meets last registry i = index.meets last registry i := by
  obtain ⟨-, more, records⟩ := index.insert_frame r
  funext field literal
  unfold meets
  rw [records, List.getElem?_append_left bound]

end Evaluation

/-- Every state that is reached answers by its last build. That build has succeeded or failed by a mixed
type of one of its attributes, and the fields with posting lists are those that it has indexed. An
evaluation fails with the leftmost leaf whose field has no attribute, and otherwise gives by ascending
identifier the stored records of which the predicate holds. An insertion gives the identifier of the one
record that equals the new one, or the next identifier, and changes no answer about the records
before it. -/
theorem Reached.answers {index : RecordIndex} {last : Option Build}
    (reached : Reached index last) :
    (∀ build, last = some build → build.outcome = .ok () ∨
      ∃ a value, build.registry.get? a.name = some a ∧
        build.outcome = .error (.mixedType a.name value)) ∧
    (∀ field, (index.postings.get? field).isSome = (attribute? last field).isSome) ∧
    (∀ (registry : AttributeRegistry) (p : Predicate),
      (∀ e, index.evaluate p registry = .error e ↔
        ∃ field, p.FirstUnknown (fun field => registry.contains field = true) field ∧
          e = .unknownAttribute field) ∧
      ((∀ field ∈ p.leafFields, registry.contains field = true) →
        ∃ ids, index.evaluate p registry = .ok ids ∧ IdList.Ascending ids ∧
          ∀ i, i ∈ ids ↔ i < index.size ∧ p.holds (index.meets last registry i) = true)) ∧
    ∀ r : Record,
      ((∃ id stored, index.records[id]? = some stored ∧ stored.same r = true ∧
          (∀ other s, index.records[other]? = some s → s.same r = true → other = id) ∧
          index.insert r = (index, id)) ∨
        (∀ stored ∈ index.records, stored.same r = false) ∧
          index.insert r =
            ({ index with
                records := index.records ++ [r]
                ids := index.ids.insert r index.size }, index.size)) ∧
      ∀ (registry : AttributeRegistry) (p : Predicate) (ids later : List RecordId),
        index.evaluate p registry = .ok ids →
        (index.insert r).1.evaluate p registry = .ok later →
        ∀ i < index.size, i ∈ later ↔ i ∈ ids := by
  refine ⟨?_, ?_, fun registry p => ⟨fun e => evaluate_eq_error_iff, fun known => ?_⟩,
    fun r => ⟨?_, ?_⟩⟩
  · rintro build rfl
    obtain ⟨done, -, -, outcome⟩ := Build.Describes.exists_done reached.described
    exact outcome
  · intro field
    obtain ⟨unindexed, unlisted⟩ | ⟨build, a, postings, rfl, indexed, -, listed⟩ :=
      reached.postings_cases field
    · rw [unindexed, unlisted]
      rfl
    · rw [listed, attribute?, Option.bind_some, indexed]
      rfl
  · obtain ⟨ascending, members⟩ := reached.matching_iff registry p
    exact ⟨_, evaluate_eq_ok_iff.mpr ⟨known, rfl⟩, ascending, members⟩
  · obtain ⟨id, stored, found, same, result⟩ | new := reached.numbered.insert_cases r
    · refine .inl ⟨id, stored, found, same, fun other s found' same' => ?_, result⟩
      exact reached.numbered.different.eq_of_same found' same' found same
    · exact .inr new
  · intro registry p ids later evaluated evaluated' i bound
    obtain ⟨-, rfl⟩ := evaluate_eq_ok_iff.mp evaluated
    obtain ⟨-, rfl⟩ := evaluate_eq_ok_iff.mp evaluated'
    obtain ⟨-, more, records⟩ := index.insert_frame r
    have bound' : i < (index.insert r).1.size := by
      rw [RecordIndex.size, records, List.length_append]
      exact Nat.lt_add_right _ bound
    rw [((reached.insert r).matching_iff registry p).2, (reached.matching_iff registry p).2,
      meets_insert bound, and_iff_right bound, and_iff_right bound']

/-- Two fields of different kinds. -/
def twoFields : AttributeRegistry :=
  ((AttributeRegistry.empty.register ⟨"a", .text⟩).1.register ⟨"b", .numeric⟩).1

/-- An index whose build failed at the second field, with one record that was stored afterwards. -/
def halfBuilt : RecordIndex :=
  let stored := (RecordIndex.empty.insert (Record.ofList [("a", .text "x")])).1
  let stored := (stored.insert (Record.ofList [("b", .text "y")])).1
  let built := (stored.indexAttributes twoFields .reject).1
  (built.insert (Record.ofList [("a", .text "x"), ("c", .null)])).1

/-- The half-built index finds the first record by its first field, the second one no longer by its
second field, and the record that was stored afterwards by neither. -/
theorem Reached.answers_of_halfBuilt :
    halfBuilt.evaluate (.equal "c" "null") twoFields = .error (.unknownAttribute "c") ∧
    ∃ ids, halfBuilt.evaluate (.or [.equal "a" "x", .equal "b" "y"]) twoFields = .ok ids ∧
      0 ∈ ids ∧ 1 ∉ ids ∧ 2 ∉ ids := by
  have registered : twoFields.Registered := (.register (.register .empty _) _)
  have reached := (((Reached.empty.insert (Record.ofList [("a", .text "x")])).insert
    (Record.ofList [("b", .text "y")])).indexAttributes registered .reject).insert
      (Record.ofList [("a", .text "x"), ("c", .null)])
  obtain ⟨-, -, evaluates, -⟩ := reached.answers
  obtain ⟨unknown, -⟩ := evaluates twoFields (.equal "c" "null")
  obtain ⟨-, known⟩ := evaluates twoFields (.or [.equal "a" "x", .equal "b" "y"])
  refine ⟨(unknown _).mpr ⟨"c", ⟨[], [], rfl, by simp, by decide⟩, rfl⟩, ?_⟩
  obtain ⟨ids, evaluated, -, members⟩ := known (by decide)
  refine ⟨ids, evaluated, (members 0).mpr (by decide +kernel), ?_, ?_⟩
  · rw [members]
    decide +kernel
  · rw [members]
    decide +kernel

end RecordIndex

end RecordQuery
