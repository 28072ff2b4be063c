import RecordQuery.Proofs.Shape
import RecordQuery.Proofs.Engine.Repetitions

/-!
# Batches of objects of one shape

Where all objects of a batch have one shape, the objects with the record of an object are the objects that
equal it, so a duplicate policy keeps, drops or refuses equal objects only.
-/

namespace RecordQuery

open Json

variable {α : Type}

namespace QueryEngine

/-- In an index that follows entries, the objects of a record are what the policy keeps of those with
equal records. -/
theorem Follows.resolve_idOf? {policy : DuplicatePolicy} {entries : List (Record × α)}
    {index : RecordIndex} {origins : Origins α} (h : Follows policy entries index origins)
    {r : Record} {object : α} (entry : (r, object) ∈ entries) :
    ∃ id, index.idOf? r = some id ∧
      origins.resolve id = policy.keeps ((equals r entries).map Prod.snd) := by
  obtain ⟨g, group, same⟩ := exists_group entry
  have stored : index.idOf? r = (groups entries).findIdx? fun g => g.1.same r := by
    rw [h.numbered.idOf?_eq_findIdx?, h.stored, List.findIdx?_map]
    rfl
  have located : (index.idOf? r).isSome = true := by
    rw [stored, List.findIdx?_isSome, List.any_eq_true]
    exact ⟨g, group, same⟩
  obtain ⟨id, found⟩ := Option.isSome_iff_exists.mp located
  rw [stored] at found
  obtain ⟨bound, own, -⟩ := List.findIdx?_eq_some_iff_getElem.mp found
  have alike : equals (groups entries)[id].1 entries = equals r entries := by
    apply List.filter_congr
    intro other _
    rw [Bool.eq_iff_iff, Record.same_iff, Record.same_iff, Record.same_iff.mp own]
  refine ⟨id, stored.trans found, ?_⟩
  rw [h.kept, objectsAt, List.getElem?_eq_getElem bound, Option.map_some, Option.getD_some,
    objects_eq_of_mem_groups (List.getElem_mem bound), alike]

/-- A batch of objects of one shape, with the values that represent them. -/
structure OneShape (serialize : α → Datum) (image : α → Json) (objects : List α) : Prop where
  represented : ∀ o ∈ objects, (serialize o).toJson = .ok (image o)
  shape : ∀ o ∈ objects, ∀ o' ∈ objects, (image o).SameShape (image o')

/-- The record of an object, without fields where it has none. -/
def recordOf (serialize : α → Datum) (o : α) : Record :=
  match Record.ofDatum (serialize o) with
  | .ok r => r
  | .error _ => .empty

/-- The objects with their records. -/
def entriesOf (serialize : α → Datum) (objects : List α) : List (Record × α) :=
  objects.map fun o => (recordOf serialize o, o)

namespace OneShape

variable {serialize : α → Datum} {image : α → Json} {objects : List α}

/-- Every object of the batch has a record, and the records of two objects are equal exactly if the
objects are. -/
theorem same_recordOf_iff (h : OneShape serialize image objects) {o o' : α} (mem : o ∈ objects)
    (mem' : o' ∈ objects) :
    Record.ofDatum (serialize o) = .ok (recordOf serialize o) ∧
      ((recordOf serialize o).same (recordOf serialize o') = true ↔
        (image o).SameObject (image o')) := by
  have formed := Datum.wellFormed_of_toJson (serialize o) (h.represented o mem)
  have formed' := Datum.wellFormed_of_toJson (serialize o') (h.represented o' mem')
  obtain ⟨r, s, flat, flat', equal⟩ :=
    Record.same_iff_of_sameShape formed formed' (h.shape o mem o' mem')
  have own : Record.ofDatum (serialize o) = .ok r := by
    rw [Record.ofDatum, h.represented o mem]
    exact flat
  have own' : Record.ofDatum (serialize o') = .ok s := by
    rw [Record.ofDatum, h.represented o' mem']
    exact flat'
  simp only [recordOf, own, own']
  exact ⟨trivial, equal⟩

theorem flat (h : OneShape serialize image objects) :
    objects.map (fun o => Record.ofDatum (serialize o)) =
      (objects.map (recordOf serialize)).map .ok := by
  rw [List.map_map]
  exact List.map_congr_left fun o mem => (h.same_recordOf_iff mem mem).1

open Classical in
/-- The objects whose records equal that of an object are the objects that equal it. -/
theorem equals_entriesOf (h : OneShape serialize image objects) {o : α} (mem : o ∈ objects) :
    (equals (recordOf serialize o) (entriesOf serialize objects)).map Prod.snd =
      objects.filter fun o' => (image o).SameObject (image o') := by
  have alike : objects.filter (fun o' => (recordOf serialize o).same (recordOf serialize o')) =
      objects.filter fun o' => (image o).SameObject (image o') := by
    apply List.filter_congr
    intro o' mem'
    rw [Bool.eq_iff_iff, (h.same_recordOf_iff mem mem').2, decide_eq_true_eq]
  rw [← alike, equals, entriesOf, List.filter_map, List.map_map]
  exact List.map_id _

end OneShape

open Classical in
/-- Objects of one shape have equal records exactly if they are equal, and a nested object counts by its
members and not by their order. So in a batch of objects of one shape the record of an object has as its
origins what the policy keeps of the objects that equal it, and the batch is refused exactly under the
rejecting policy if two of its objects are equal. -/
theorem oneShape_collapse :
    (∀ v w : Json, v.WellFormed → w.WellFormed → v.SameShape w →
      ∃ r s, Record.ofJson v = .ok r ∧ Record.ofJson w = .ok s ∧
        (r.same s = true ↔ v.SameObject w)) ∧
    (∀ members others : List (String × Json), (object members).WellFormed →
      (object others).WellFormed →
      (object members = object others ↔ ∀ key, members.lookup key = others.lookup key)) ∧
    ∀ (serialize : α → Datum) (image : α → Json) (objects : List α),
      OneShape serialize image objects →
      ∃ records : List Record,
        objects.map (fun o => Record.ofDatum (serialize o)) = records.map .ok ∧
        ∀ policy,
          ((∃ index origins, correlate RecordIndex.empty (Origins.empty policy) 0
              (records.zip objects) = .ok (index, origins)) ↔
            (policy = .reject →
              objects.Pairwise fun o o' => ¬ (image o).SameObject (image o'))) ∧
          ∀ index origins, correlate RecordIndex.empty (Origins.empty policy) 0
              (records.zip objects) = .ok (index, origins) →
            ∀ o ∈ objects, ∃ r id, Record.ofDatum (serialize o) = .ok r ∧
              index.idOf? r = some id ∧
              origins.resolve id =
                policy.keeps (objects.filter fun o' => (image o).SameObject (image o')) := by
  refine ⟨fun v w => Record.same_iff_of_sameShape, fun members others => object_eq_iff,
    fun serialize image objects batch => ⟨_, batch.flat, fun policy => ?_⟩⟩
  have zipped : (objects.map (recordOf serialize)).zip objects = entriesOf serialize objects := by
    rw [entriesOf, List.map_prod_right_eq_zip]
  rw [zipped]
  constructor
  · rw [exists_correlate_iff]
    apply imp_congr_right
    rintro -
    rw [Record.AllDifferent, entriesOf, List.map_map, List.pairwise_map]
    apply List.Pairwise.iff_of_mem
    intro o o' mem mem'
    rw [← (batch.same_recordOf_iff mem mem').2, Bool.not_eq_true]
    exact Iff.rfl
  · intro index origins correlated o mem
    have follows := (follows_empty policy).correlate correlated
    rw [List.nil_append] at follows
    obtain ⟨id, found, resolved⟩ := follows.resolve_idOf? (List.mem_map_of_mem mem)
    rw [batch.equals_entriesOf mem] at resolved
    exact ⟨_, id, (batch.same_recordOf_iff mem mem).1, found, resolved⟩

/-- Objects with one array of texts, two of them with a comma in a text and one with a comma between
texts. -/
def commas : Nat → Datum
  | 1 => .mapping [(.text "a", .sequence [.text "1", .text "2"])]
  | _ => .mapping [(.text "a", .sequence [.text "1,2"])]

/-- The values that represent these objects. -/
def commaImages : Nat → Json
  | 1 => object [("a", array [string "1", string "2"])]
  | _ => object [("a", array [string "1,2"])]

theorem oneShape_commas : OneShape commas commaImages [0, 1, 2] := by
  have shape (items others : List Json) :
      (object [("a", array items)]).SameShape (object [("a", array others)]) := by
    intro key
    rw [SortedMap.lookup_cons_ite, SortedMap.lookup_cons_ite]
    split
    · exact .some rfl
    · exact .none
  constructor
  · intro o mem
    simp only [List.mem_cons, List.not_mem_nil, or_false] at mem
    rcases mem with rfl | rfl | rfl <;> rfl
  · intro o mem o' mem'
    simp only [List.mem_cons, List.not_mem_nil, or_false] at mem mem'
    rcases mem with rfl | rfl | rfl <;> rcases mem' with rfl | rfl | rfl <;> exact shape _ _

theorem sameObject_commas_iff {o : Nat} (mem : o ∈ [0, 1, 2]) :
    (commaImages 0).SameObject (commaImages o) ↔ o ≠ 1 := by
  simp only [List.mem_cons, List.not_mem_nil, or_false] at mem
  have refl : (commaImages 0).SameObject (commaImages 0) := by
    intro key
    rw [SortedMap.lookup_cons_ite]
    split
    · exact .some rfl
    · exact .none
  rcases mem with rfl | rfl | rfl
  · exact iff_of_true refl (by decide)
  · refine iff_of_false (fun same => ?_) (by decide)
    obtain ⟨equal⟩ := same "a"
    cases (List.cons.inj (Json.array.inj equal)).2
  · exact iff_of_true refl (by decide)

open Classical in
/-- The comma in a text and the comma between texts are kept apart, so the last of the equal objects takes
the place of the first one and leaves the other one alone. -/
theorem oneShape_collapse_of_commas :
    (∃ r s, Record.ofJson (commaImages 0) = .ok r ∧ Record.ofJson (commaImages 1) = .ok s ∧
      r.same s = false) ∧
    commaImages 0 ≠ commaImages 1 ∧
    ∃ records : List Record,
      [0, 1, 2].map (fun o => Record.ofDatum (commas o)) = records.map .ok ∧
      ∃ index origins id, correlate RecordIndex.empty (Origins.empty .keepLast) 0
          (records.zip [0, 1, 2]) = .ok (index, origins) ∧
        origins.resolve id = [2] := by
  obtain ⟨pairs, nested, batches⟩ := oneShape_collapse (α := Nat)
  have formed (o : Nat) (mem : o ∈ [0, 1, 2]) : (commaImages o).WellFormed :=
    Datum.wellFormed_of_toJson (commas o) (oneShape_commas.represented o mem)
  obtain ⟨r, s, flat, flat', exactly⟩ := pairs (commaImages 0) (commaImages 1)
    (formed 0 (by simp)) (formed 1 (by simp)) (oneShape_commas.shape 0 (by simp) 1 (by simp))
  have apart : ¬ (commaImages 0).SameObject (commaImages 1) := fun same =>
    (sameObject_commas_iff (by simp)).mp same rfl
  refine ⟨⟨r, s, flat, flat', Bool.eq_false_iff.mpr fun same => apart (exactly.mp same)⟩, ?_, ?_⟩
  · intro same
    have lookups := (nested _ _ (formed 0 (by simp)) (formed 1 (by simp))).mp same "a"
    cases (List.cons.inj (Json.array.inj (Option.some.inj lookups))).2
  · obtain ⟨records, flattened, policies⟩ := batches commas commaImages [0, 1, 2] oneShape_commas
    obtain ⟨stores, resolves⟩ := policies .keepLast
    obtain ⟨index, origins, correlated⟩ := stores.mpr DuplicatePolicy.noConfusion
    obtain ⟨-, id, -, -, resolved⟩ := resolves index origins correlated 0 (by simp)
    refine ⟨records, flattened, index, origins, id, correlated, ?_⟩
    have kept : ([0, 1, 2].filter fun o => decide ((commaImages 0).SameObject (commaImages o))) =
        [0, 1, 2].filter fun o => o != 1 := by
      apply List.filter_congr
      intro o mem
      rw [Bool.eq_iff_iff, decide_eq_true_eq, sameObject_commas_iff mem, bne_iff_ne]
    rw [resolved, kept]
    rfl

end QueryEngine

end RecordQuery
