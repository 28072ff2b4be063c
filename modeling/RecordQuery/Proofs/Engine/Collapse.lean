import RecordQuery.Proofs.Engine.Answer

/-!
# Collapsing equal records

Objects with equal records share the record that was stored first, and are selected if that one
satisfies the predicate. Their own records may differ from it in the signs of zeros. Keys of numbers do
not show the difference but texts do, so collapsing is seen exactly in fields that are compared as text.
-/

namespace RecordQuery

variable {α : Type}

/-- Values that are the same number are the same number as any other value. -/
theorem Binary.sameNumber_congr {f : BinaryFormat} {x y : Binary f}
    (same : x.sameNumber y = true) (z : Binary f) : x.sameNumber z = y.sameNumber z := by
  unfold sameNumber
  rw [sameNumber_iff.mp same]

namespace FieldValue

/-- Equal values meet the same literals under the numeric kind. -/
theorem meets_numeric_of_same {v w : FieldValue} (equal : v.same w = true) (literal : String) :
    v.meets .numeric literal = w.meets .numeric literal := by
  rcases eq_or_floats_of_same equal with rfl | ⟨x, y, rfl, rfl, same⟩
  · rfl
  · simp [meets, Number.toBinary?, Binary.sameNumber_congr same]

end FieldValue

namespace Record

/-- Two equal records either both lack a field or have equal values there. -/
theorem get?_cases_of_same {r s : Record} (h : r.same s = true) (field : String) :
    (r.get? field = none ∧ s.get? field = none) ∨
      ∃ v w, r.get? field = some v ∧ s.get? field = some w ∧ v.same w = true := by
  have images := get?_of_same h field
  cases found : r.get? field with
  | none =>
      rw [found] at images
      exact .inl ⟨rfl, Option.map_eq_none_iff.mp images.symm⟩
  | some v =>
      rw [found] at images
      obtain ⟨w, found', same⟩ := Option.map_eq_some_iff.mp images.symm
      exact .inr ⟨v, w, rfl, found', FieldValue.same_iff.mpr same.symm⟩

/-- Whether two records have equal values in each of the given fields, or both lack the field. -/
def AgreeOn (fields : List String) (r s : Record) : Prop :=
  ∀ field ∈ fields, (r.get? field = none ∧ s.get? field = none) ∨
    ∃ v w, r.get? field = some v ∧ s.get? field = some w ∧ v.same w = true

theorem agreeOn_of_same {r s : Record} (h : r.same s = true) (fields : List String) :
    r.AgreeOn fields s :=
  fun field _ => get?_cases_of_same h field

/-- The truth of a predicate on a record depends on the fields that it tests and on their kinds. Equal
values count as one, except where they are compared as text. -/
theorem satisfies_congr {kinds kinds' : String → AttributeKind} {r s : Record} {p : Predicate}
    (alike : ∀ field ∈ p.leafFields, kinds field = kinds' field)
    (agree : r.AgreeOn p.leafFields s)
    (exactly : ∀ field ∈ p.leafFields, kinds field = .text → r.get? field = s.get? field) :
    r.satisfies kinds p = s.satisfies kinds' p := by
  apply Predicate.holds_congr
  intro field mem literal
  unfold valueOf
  rw [← alike field mem]
  cases kind : kinds field with
  | text => rw [exactly field mem kind]
  | numeric =>
      rcases agree field mem with ⟨absent, absent'⟩ | ⟨v, w, found, found', same⟩
      · rw [absent, absent']
      · rw [found, found']
        exact FieldValue.meets_numeric_of_same same literal

/-- Equal records that agree in the fields compared as text satisfy the same predicates. -/
theorem satisfies_of_same {kinds : String → AttributeKind} {r s : Record}
    (h : r.same s = true) (agree : ∀ field, kinds field = .text → r.get? field = s.get? field)
    (p : Predicate) : r.satisfies kinds p = s.satisfies kinds p :=
  satisfies_congr (fun _ _ => rfl) (agreeOn_of_same h _) fun field _ => agree field

end Record

namespace IndexKey

/-- The keys of equal records agree exactly if the attribute is numeric or the values are one and the
same. -/
theorem keyOf_eq_iff_of_same {a : Attribute} {r s : Record} (h : r.same s = true) :
    keyOf a r = keyOf a s ↔ a.kind = .numeric ∨ r.get? a.name = s.get? a.name := by
  obtain ⟨field, kind⟩ := a
  unfold keyOf Attribute.extract Attribute.textOf
  cases kind with
  | text =>
      rcases Record.get?_cases_of_same h field with ⟨absent, absent'⟩ | ⟨v, w, found, found', same⟩
      · simp [absent, absent']
      · simp [found, found', FieldValue.toText_eq_iff_of_same same]
  | numeric =>
      simp only [true_or, iff_true]
      rcases Record.get?_cases_of_same h field with ⟨absent, absent'⟩ | ⟨v, w, found, found', same⟩
      · simp only [absent, absent']
      · rcases FieldValue.eq_or_floats_of_same same with rfl | ⟨x, y, rfl, rfl, number⟩
        · simp only [found, found']
        · simp only [found, found', Number.toBinary?, Option.map_some]
          exact ofNumber_inj.mpr number

end IndexKey

namespace QueryEngine

/-- Settings under which every object is kept and texts stand in for numbers. -/
def keepingAll (collection : String) : EngineConfig := ⟨collection, .keepAll, .textFallback⟩

/-- Selects from the objects together with their positions, which tell equal objects apart and do not
count for the records. -/
def selectNumbered (collection : String) (flatten : α → Except FlattenError Record)
    (objects : List α) (p : Predicate) : Except EvalError (List (α × Nat)) :=
  select (keepingAll collection) (fun numbered => flatten numbered.1) objects.zipIdx p

section Numbered

variable {collection : String} {flatten : α → Except FlattenError Record} {objects : List α}
  {records : List Record}

theorem flat_zipIdx (flat : objects.map flatten = records.map .ok) :
    objects.zipIdx.map (fun numbered => flatten numbered.1) = records.map .ok := by
  rw [← flat]
  calc objects.zipIdx.map (fun numbered => flatten numbered.1)
      = (objects.zipIdx.map Prod.fst).map flatten := by rw [List.map_map]; rfl
    _ = objects.map flatten := by rw [List.zipIdx_map_fst]

/-- The entries of numbered objects are the records and objects at one position. -/
theorem mem_zip_zipIdx {r : Record} {object : α} {i : Nat} :
    (r, (object, i)) ∈ records.zip objects.zipIdx ↔
      records[i]? = some r ∧ objects[i]? = some object := by
  rw [List.mem_iff_getElem?]
  constructor
  · rintro ⟨j, found⟩
    obtain ⟨record, numbered⟩ := List.getElem?_zip_eq_some.mp found
    rw [List.getElem?_zipIdx] at numbered
    obtain ⟨own, located, same⟩ := Option.map_eq_some_iff.mp numbered
    obtain ⟨rfl, rfl⟩ := Prod.mk.inj same
    rw [Nat.zero_add]
    exact ⟨record, located⟩
  · rintro ⟨record, located⟩
    refine ⟨i, List.getElem?_zip_eq_some.mpr ⟨record, ?_⟩⟩
    rw [List.getElem?_zipIdx, located, Nat.zero_add]
    rfl

/-- The answer over the numbered objects is the answer, with positions. -/
theorem map_fst_answer_zipIdx (policy : DuplicatePolicy) (p : Predicate) :
    (answer policy (records.zip objects.zipIdx) p).map Prod.fst =
      answer policy (records.zip objects) p := by
  have unnumbered : (records.zip objects.zipIdx).map (Prod.map id Prod.fst) =
      records.zip objects := by
    rw [← List.zip_map_right, List.zipIdx_map_fst]
  rw [map_answer, unnumbered]

/-- A position is in the answer exactly if the first record equal to the one there satisfies the
predicate. -/
theorem mem_answer_zipIdx (flat : objects.map flatten = records.map .ok) {p : Predicate} {i : Nat}
    {object : α} {r : Record} (located : objects[i]? = some object)
    (record : records[i]? = some r) :
    (object, i) ∈ answer .keepAll (records.zip objects.zipIdx) p ↔
      ∃ s, records.find? (fun s => s.same r) = some s ∧
        s.satisfies (kindIn records) p = true := by
  rw [mem_answer_keepAll, map_fst_zip_of_flat (flat_zipIdx flat)]
  constructor
  · rintro ⟨r', s, entry, first, holds⟩
    obtain rfl := Option.some.inj (record.symm.trans (mem_zip_zipIdx.mp entry).1)
    exact ⟨s, first, holds⟩
  · rintro ⟨s, first, holds⟩
    exact ⟨r, s, mem_zip_zipIdx.mpr ⟨record, located⟩, first, holds⟩

/-- Numbered or not, the selection succeeds with the same objects. It selects a position exactly if the
first record equal to the one there satisfies the predicate. -/
theorem exists_selectNumbered (flat : objects.map flatten = records.map .ok)
    (finite : ∀ r ∈ records, r.Finite) {p : Predicate}
    (carried : ∀ field ∈ p.leafFields, Carried records field) :
    ∃ found, selectNumbered collection flatten objects p = .ok found ∧
      select (keepingAll collection) flatten objects p = .ok (found.map Prod.fst) ∧
      ∀ i object r, objects[i]? = some object → records[i]? = some r →
        ((object, i) ∈ found ↔ ∃ s, records.find? (fun s => s.same r) = some s ∧
          s.satisfies (kindIn records) p = true) := by
  have tolerant : (keepingAll collection).duplicates ≠ .reject := DuplicatePolicy.noConfusion
  obtain ⟨found, numbered⟩ := exists_select (flat_zipIdx flat) tolerant rfl carried
  obtain ⟨plain, selected⟩ := exists_select flat tolerant rfl carried
  have found_eq := select_eq_answer (flat_zipIdx flat) finite numbered
  have plain_eq := select_eq_answer flat finite selected
  refine ⟨found, numbered, ?_, ?_⟩
  · rw [selected, plain_eq, found_eq, map_fst_answer_zipIdx]
  · intro i object r located record
    rw [found_eq]
    exact mem_answer_zipIdx flat located record

/-- A record equals a first one of its batch. -/
theorem exists_first {i : Nat} {r : Record} (record : records[i]? = some r) :
    ∃ s ∈ records, records.find? (fun s => s.same r) = some s ∧ s.same r = true := by
  have stored : (records.find? fun s => s.same r).isSome = true :=
    List.find?_isSome.mpr ⟨r, List.mem_of_getElem? record, Record.same_refl r⟩
  obtain ⟨s, first⟩ := Option.isSome_iff_exists.mp stored
  exact ⟨s, List.mem_of_find?_eq_some first, first, by simpa only using List.find?_some first⟩

/-- Whether every object is selected by its own record, whatever the predicate. -/
def Unseen (collection : String) (flatten : α → Except FlattenError Record) (objects : List α)
    (records : List Record) : Prop :=
  ∀ p : Predicate, (∀ field ∈ p.leafFields, Carried records field) →
    ∀ found, selectNumbered collection flatten objects p = .ok found →
      ∀ i object r, objects[i]? = some object → records[i]? = some r →
        ((object, i) ∈ found ↔ r.satisfies (kindIn records) p = true)

theorem unseen_of_agree (flat : objects.map flatten = records.map .ok)
    (finite : ∀ r ∈ records, r.Finite)
    (agree : ∀ r ∈ records, ∀ s ∈ records, r.same s = true →
      ∀ field, kindIn records field = .text → r.get? field = s.get? field) :
    Unseen collection flatten objects records := by
  intro p carried found selected i object r located record
  obtain ⟨other, numbered, -, members⟩ := exists_selectNumbered flat finite carried
  obtain rfl := Except.ok.inj (selected.symm.trans numbered)
  obtain ⟨s, mem, first, same⟩ := exists_first record
  have alike : s.satisfies (kindIn records) p = r.satisfies (kindIn records) p :=
    Record.satisfies_of_same same (agree s mem r (List.mem_of_getElem? record) same) p
  rw [members i object r located record, first, ← alike]
  simp only [Option.some.injEq, exists_eq_left']

theorem exists_object_of_record (flat : objects.map flatten = records.map .ok) {i : Nat}
    {r : Record} (record : records[i]? = some r) : ∃ object, objects[i]? = some object := by
  have image : (objects.map flatten)[i]? = some (.ok r) := by
    rw [flat, List.getElem?_map, record]
    rfl
  rw [List.getElem?_map] at image
  obtain ⟨object, located, -⟩ := Option.map_eq_some_iff.mp image
  exact ⟨object, located⟩

theorem agree_of_unseen (flat : objects.map flatten = records.map .ok)
    (finite : ∀ r ∈ records, r.Finite) (unseen : Unseen collection flatten objects records) :
    ∀ r ∈ records, ∀ s ∈ records, r.same s = true →
      ∀ field, kindIn records field = .text → r.get? field = s.get? field := by
  intro r memR s memS same field kind
  rcases Record.get?_cases_of_same same field with ⟨absent, absent'⟩ | ⟨v, w, found, found', equal⟩
  · rw [absent, absent']
  · have carried : ∀ name ∈ (Predicate.equal field w.toText).leafFields, Carried records name := by
      intro name mem
      rw [List.mem_singleton.mp mem]
      exact ⟨s, memS, by rw [found']; rfl⟩
    obtain ⟨i, record⟩ := List.mem_iff_getElem?.mp memR
    obtain ⟨j, record'⟩ := List.mem_iff_getElem?.mp memS
    obtain ⟨object, located⟩ := exists_object_of_record flat record
    obtain ⟨object', located'⟩ := exists_object_of_record flat record'
    obtain ⟨selected, numbered, -, members⟩ := exists_selectNumbered flat finite carried
    -- The two objects share a group, so a query for the text of one value selects both or none.
    have shared : (object, i) ∈ selected ↔ (object', j) ∈ selected := by
      have first : (fun t : Record => t.same r) = fun t => t.same s :=
        funext fun t => Record.same_congr same t
      rw [members i object r located record, members j object' s located' record', first]
    have own := unseen _ carried selected numbered i object r located record
    have own' := unseen _ carried selected numbered j object' s located' record'
    have holds' : s.satisfies (kindIn records) (.equal field w.toText) = true := by
      simp [Record.satisfies, Predicate.holds, Record.valueOf, found', kind, FieldValue.meets]
    have holds := own.mp (shared.mpr (own'.mpr holds'))
    have text : v.toText = w.toText := by
      simpa [Record.satisfies, Predicate.holds, Record.valueOf, found, kind, FieldValue.meets]
        using holds
    rw [found, found', (FieldValue.toText_eq_iff_of_same equal).mp text]

end Numbered

end QueryEngine

/-- Where every object is kept and texts stand in for numbers, a query by carried fields selects the
object at a position exactly if the first stored record equal to its own satisfies the predicate. So
every object is selected by its own record exactly if no two equal records of the batch hold different
values, which are then zeros of different signs, in a field that is compared as text. The keys of equal
records differ in no other case. -/
theorem collapse_unseen_iff (collection : String) (serialize : α → Datum) (objects : List α)
    (records : List Record)
    (flat : objects.map (fun object => Record.ofDatum (serialize object)) = records.map .ok) :
    (∀ p : Predicate, (∀ field ∈ p.leafFields, Carried records field) →
      ∃ found,
        QueryEngine.selectNumbered collection (fun object => Record.ofDatum (serialize object))
          objects p = .ok found ∧
        QueryEngine.select (QueryEngine.keepingAll collection)
          (fun object => Record.ofDatum (serialize object)) objects p =
            .ok (found.map Prod.fst) ∧
        ∀ i object r, objects[i]? = some object → records[i]? = some r →
          ((object, i) ∈ found ↔ ∃ s, records.find? (fun s => s.same r) = some s ∧
            s.satisfies (kindIn records) p = true)) ∧
    (QueryEngine.Unseen collection (fun object => Record.ofDatum (serialize object)) objects
        records ↔
      ∀ r ∈ records, ∀ s ∈ records, r.same s = true →
        ∀ field, kindIn records field = .text → r.get? field = s.get? field) ∧
    (∀ (a : Attribute) (r s : Record), r.same s = true →
      (IndexKey.ofRecord .textFallback a r = IndexKey.ofRecord .textFallback a s ↔
        a.kind = .numeric ∨ r.get? a.name = s.get? a.name)) := by
  have finite := QueryEngine.finite_of_flat flat
  refine ⟨fun p carried => QueryEngine.exists_selectNumbered flat finite carried, ⟨?_, ?_⟩, ?_⟩
  · exact QueryEngine.agree_of_unseen flat finite
  · exact QueryEngine.unseen_of_agree flat finite
  · intro a r s same
    rw [IndexKey.ofRecord_textFallback, IndexKey.ofRecord_textFallback, Except.ok.injEq]
    exact IndexKey.keyOf_eq_iff_of_same same

namespace QueryEngine

/-- Three objects with one field, which holds zero, negative zero and a text. -/
def unlikeZeros : Nat → Datum
  | 0 => .mapping [(.text "a", .double (some ⟨false, 0, by decide⟩))]
  | 1 => .mapping [(.text "a", .double (some ⟨true, 0, by decide⟩))]
  | _ => .mapping [(.text "a", .text "x")]

/-- The record with a zero in its one field. -/
def zeroRecord (negative : Bool) : Record :=
  Record.ofList [("a", .number (.float ⟨negative, 0, by decide⟩))]

/-- The records of these objects. -/
def unlikeRecords : List Record :=
  [zeroRecord false, zeroRecord true, Record.ofList [("a", .text "x")]]

end QueryEngine

open QueryEngine

/-- The two zeros are equal and compared as text, so collapsing their records is seen. -/
theorem collapse_seen_of_unlikeZeros :
    ¬ Unseen "objects" (fun object => Record.ofDatum (unlikeZeros object)) [0, 1, 2]
      unlikeRecords := by
  have exact := collapse_unseen_iff "objects" unlikeZeros [0, 1, 2] unlikeRecords rfl
  intro unseen
  have equal := exact.2.1.mp unseen (zeroRecord false) (by simp [unlikeRecords]) (zeroRecord true)
    (by simp [unlikeRecords]) (by decide) "a" (by decide)
  exact absurd equal (by decide)

/-- A query for the text of negative zero does not select the object that holds it, although its own
record satisfies the predicate. -/
theorem negativeZero_not_selected :
    QueryEngine.findByPredicate ⟨keepingAll "objects", .standard⟩
        (fun object => Record.ofDatum (unlikeZeros object)) [0, 1, 2] "a='-0.0'" = .ok [] ∧
      Record.ofDatum (unlikeZeros 1) = .ok (zeroRecord true) ∧
      (zeroRecord true).satisfies (kindIn unlikeRecords) (.equal "a" "-0.0") = true := by
  refine ⟨?_, rfl, ?_⟩
  · decide +kernel
  · decide +kernel

end RecordQuery
