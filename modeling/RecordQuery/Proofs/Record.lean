import RecordQuery.Record
import RecordQuery.Proofs.SortedMap
import RecordQuery.Proofs.Decimal.Binary

/-!
# Equality of records

Equality of numbers, of values and of records is equality of what is left when the signs of zeros are
removed, so it is an equivalence relation. Equal values that differ differ in their texts. The numbers
of a flattened record are finite.
-/

namespace RecordQuery

namespace Number

/-- The number with the sign of a zero removed. -/
def unsigned : Number → Number
  | integer n => integer n
  | float x => float x.unsignedZero

theorem same_iff {n m : Number} : n.same m = true ↔ n.unsigned = m.unsigned := by
  cases n with
  | integer i =>
      cases m with
      | integer j => simp [same, unsigned]
      | float y => simp [same, unsigned]
  | float x =>
      cases m with
      | integer j => simp [same, unsigned]
      | float y => simp [same, unsigned, Binary.sameNumber_iff]

end Number

namespace FieldValue

/-- The value with the sign of a zero removed. -/
def unsigned : FieldValue → FieldValue
  | number n => number n.unsigned
  | value => value

theorem same_iff {v w : FieldValue} : v.same w = true ↔ v.unsigned = w.unsigned := by
  cases v <;> cases w <;> simp [same, unsigned, Number.same_iff]

/-- Equal values are one and the same or binary values that are the same number. -/
theorem eq_or_floats_of_same {v w : FieldValue} (equal : v.same w = true) :
    v = w ∨ ∃ x y, v = number (.float x) ∧ w = number (.float y) ∧ x.sameNumber y = true := by
  have images := same_iff.mp equal
  cases v with
  | number n =>
      cases w with
      | number m =>
          cases n with
          | integer i =>
              cases m with
              | integer j => exact .inl images
              | float y => cases equal
          | float x =>
              cases m with
              | integer j => cases equal
              | float y => exact .inr ⟨x, y, rfl, rfl, equal⟩
      | text s => cases equal
      | null => cases equal
  | text s => cases w <;> first | exact .inl images | cases equal
  | null => cases w <;> first | exact .inl images | cases equal

/-- Equal values have one text exactly if they are one and the same. -/
theorem toText_eq_iff_of_same {v w : FieldValue} (equal : v.same w = true) :
    v.toText = w.toText ↔ v = w := by
  refine ⟨fun text => ?_, congrArg toText⟩
  rcases eq_or_floats_of_same equal with same | ⟨x, y, rfl, rfl, same⟩
  · exact same
  · rw [Binary.eq_of_sameNumber_of_write_eq same text]

end FieldValue

namespace Record

/-- The fields with the signs of zeros removed. -/
def unsignedFields (r : Record) : List (String × FieldValue) :=
  r.toList.map fun entry => (entry.1, entry.2.unsigned)

theorem sameFields_iff {fields others : List (String × FieldValue)} :
    sameFields fields others = true ↔
      fields.map (fun entry => (entry.1, entry.2.unsigned)) =
        others.map fun entry => (entry.1, entry.2.unsigned) := by
  induction fields generalizing others with
  | nil => cases others <;> simp [sameFields]
  | cons entry rest ih =>
      cases others with
      | nil => simp [sameFields]
      | cons other more => simp [sameFields, FieldValue.same_iff, ih, and_assoc]

theorem same_iff {r s : Record} : r.same s = true ↔ r.unsignedFields = s.unsignedFields :=
  sameFields_iff

@[simp]
theorem same_refl (r : Record) : r.same r = true := same_iff.mpr rfl

theorem same_symm {r s : Record} (h : r.same s = true) : s.same r = true :=
  same_iff.mpr (same_iff.mp h).symm

theorem same_trans {r s t : Record} (h : r.same s = true) (h' : s.same t = true) :
    r.same t = true :=
  same_iff.mpr ((same_iff.mp h).trans (same_iff.mp h'))

/-- The same records equal two equal ones. -/
theorem same_congr {r s : Record} (h : r.same s = true) (t : Record) : t.same r = t.same s := by
  rw [Bool.eq_iff_iff, same_iff, same_iff, same_iff.mp h]

theorem lookup_unsignedFields (r : Record) (field : String) :
    r.unsignedFields.lookup field = (r.get? field).map FieldValue.unsigned :=
  SortedMap.lookup_map FieldValue.unsigned r.toList field

/-- Equal records carry the same fields, with equal values. -/
theorem get?_of_same {r s : Record} (h : r.same s = true) (field : String) :
    (r.get? field).map FieldValue.unsigned = (s.get? field).map FieldValue.unsigned := by
  rw [← lookup_unsignedFields, ← lookup_unsignedFields, same_iff.mp h]

/-- Records are equal exactly if they carry the same fields, with equal values. -/
theorem same_iff_get? {r s : Record} :
    r.same s = true ↔
      ∀ field, (r.get? field).map FieldValue.unsigned = (s.get? field).map FieldValue.unsigned := by
  have ascending (r : Record) : r.unsignedFields.Pairwise fun a b => a.1 < b.1 :=
    List.pairwise_map.mpr r.fields.ascending
  refine ⟨get?_of_same, fun alike => same_iff.mpr ?_⟩
  apply SortedMap.eq_of_lookup_eq (ascending r) (ascending s)
  intro field
  rw [lookup_unsignedFields, lookup_unsignedFields, alike]

/-- Whether no two records of a list are equal. -/
def AllDifferent (records : List Record) : Prop :=
  records.Pairwise fun r s => r.same s = false

/-- A further record that differs from all others. -/
theorem AllDifferent.concat {records : List Record} (h : AllDifferent records) {s : Record}
    (new : ∀ r ∈ records, r.same s = false) : AllDifferent (records ++ [s]) := by
  refine List.pairwise_append.mpr ⟨h, List.pairwise_singleton .., ?_⟩
  intro r mem other last
  rw [List.mem_singleton.mp last]
  exact new r mem

/-- Among different records at most one equals a given one. -/
theorem AllDifferent.eq_of_same {records : List Record} (h : AllDifferent records) {r s t : Record}
    {i j : Nat} (first : records[i]? = some s) (same : s.same r = true)
    (second : records[j]? = some t) (same' : t.same r = true) : i = j := by
  have apart := List.pairwise_iff_getElem.mp h
  have equal (x y : Record) (first : x.same r = true) (second : y.same r = true) :
      ¬ x.same y = false := by
    rw [same_trans first (same_symm second)]
    exact Bool.noConfusion
  obtain ⟨bound, rfl⟩ := List.getElem?_eq_some_iff.mp first
  obtain ⟨bound', rfl⟩ := List.getElem?_eq_some_iff.mp second
  rcases Nat.lt_trichotomy i j with less | rfl | greater
  · exact absurd (apart i j bound bound' less) (equal _ _ same same')
  · rfl
  · exact absurd (apart j i bound' bound greater) (equal _ _ same' same)

/-- Whether every number in the record has a finite binary value. -/
def Finite (r : Record) : Prop :=
  ∀ field n, r.get? field = some (.number n) → n.toBinary?.isSome = true

end Record

/-- A sequence of steps succeeds where both do. -/
theorem bind_eq_ok_iff {ε α β : Type} {x : Except ε α} {f : α → Except ε β} {b : β} :
    (x >>= f) = .ok b ↔ ∃ a, x = .ok a ∧ f a = .ok b := by
  cases x with
  | error e => simp [Bind.bind, Except.bind]
  | ok a => simp [Bind.bind, Except.bind]

namespace Datum

theorem isSome_toBinary?_of_jsonOfBinary {x : Option Binary64} {n : Number}
    (h : jsonOfBinary x = .number n) : n.toBinary?.isSome = true := by
  cases x with
  | none => cases h
  | some x =>
      obtain rfl := Json.number.inj h
      rfl

theorem jsonOfBinary_ne_object (x : Option Binary64) (members : List (String × Json)) :
    jsonOfBinary x ≠ .object members := by
  cases x with
  | none => exact Json.noConfusion
  | some x => exact Json.noConfusion

/-- Every number that represents a datum has a finite binary value. -/
theorem isSome_toBinary?_of_toJson {n : Number} :
    ∀ datum : Datum, datum.toJson = .ok (.number n) → n.toBinary?.isSome = true
  | present value, h => isSome_toBinary?_of_toJson value (by simpa only [toJson] using h)
  | wrapped value, h => isSome_toBinary?_of_toJson value (by simpa only [toJson] using h)
  | integer i, h => by
      simp only [toJson] at h
      split at h
      · rename_i fits
        obtain rfl := Json.number.inj (Except.ok.inj h)
        exact Binary.isSome_ofInt?_of_fits64 fits
      · cases h
  | single x, h => by
      simp only [toJson] at h
      exact isSome_toBinary?_of_jsonOfBinary (Except.ok.inj h)
  | double x, h => by
      simp only [toJson] at h
      exact isSome_toBinary?_of_jsonOfBinary (Except.ok.inj h)
  | tagged name value, h => by
      simp only [toJson, bind_eq_ok_iff] at h
      obtain ⟨value, -, ⟨⟩⟩ := h
  | sequence items, h => by
      simp only [toJson, bind_eq_ok_iff] at h
      obtain ⟨value, -, ⟨⟩⟩ := h
  | mapping entries, h => by
      simp only [toJson, bind_eq_ok_iff] at h
      obtain ⟨value, -, ⟨⟩⟩ := h
  | absent, h => by simp [toJson] at h
  | boolean b, h => by simp [toJson] at h
  | text s, h => by simp [toJson] at h
  | bytes values, h => by simp [toJson] at h
  | failing cause, h => by simp [toJson] at h

/-- The values of entries represent data. -/
theorem exists_toJson_of_mem_entries {entries : List (Datum × Datum)}
    {members : List (String × Json)} (h : entriesToJson entries = .ok members) {key : String}
    {value : Json} (mem : (key, value) ∈ members) : ∃ inner : Datum, inner.toJson = .ok value := by
  induction entries generalizing members with
  | nil =>
      simp only [entriesToJson, Except.ok.injEq] at h
      rw [← h] at mem
      exact absurd mem List.not_mem_nil
  | cons entry rest ih =>
      simp only [entriesToJson, bind_eq_ok_iff] at h
      obtain ⟨name, -, image, represented, others, more, ⟨⟩⟩ := h
      rcases List.mem_cons.mp mem with same | mem
      · obtain ⟨rfl, rfl⟩ := Prod.mk.inj same
        exact ⟨entry.2, represented⟩
      · exact ih more mem

/-- The members of an object that represents a datum represent data themselves. -/
theorem exists_toJson_of_mem {members : List (String × Json)} {key : String} {value : Json}
    (mem : (key, value) ∈ members) :
    ∀ datum : Datum, datum.toJson = .ok (.object members) →
      ∃ inner : Datum, inner.toJson = .ok value
  | present value, h =>
      exists_toJson_of_mem mem value (by simpa only [toJson] using h)
  | wrapped value, h =>
      exists_toJson_of_mem mem value (by simpa only [toJson] using h)
  | tagged name inner, h => by
      simp only [toJson, bind_eq_ok_iff] at h
      obtain ⟨image, represented, ⟨⟩⟩ := h
      obtain ⟨rfl, rfl⟩ := Prod.mk.inj (List.mem_singleton.mp mem)
      exact ⟨inner, represented⟩
  | mapping entries, h => by
      simp only [toJson, bind_eq_ok_iff] at h
      obtain ⟨pairs, represented, ⟨⟩⟩ := h
      exact exists_toJson_of_mem_entries represented (SortedMap.mem_of_mem_ofList mem)
  | sequence items, h => by
      simp only [toJson, bind_eq_ok_iff] at h
      obtain ⟨image, -, ⟨⟩⟩ := h
  | integer i, h => by
      simp only [toJson] at h
      split at h <;> cases h
  | single x, h => by
      simp only [toJson] at h
      exact absurd (Except.ok.inj h) (jsonOfBinary_ne_object _ members)
  | double x, h => by
      simp only [toJson] at h
      exact absurd (Except.ok.inj h) (jsonOfBinary_ne_object _ members)
  | absent, h => by simp [toJson] at h
  | boolean b, h => by simp [toJson] at h
  | text s, h => by simp [toJson] at h
  | bytes values, h => by simp [toJson] at h
  | failing cause, h => by simp [toJson] at h

end Datum

/-- The numbers of the record of a datum are finite. -/
theorem Record.finite_of_ofDatum {datum : Datum} {r : Record}
    (h : Record.ofDatum datum = .ok r) : r.Finite := by
  intro field n found
  unfold ofDatum at h
  cases image : datum.toJson with
  | error fault =>
      rw [image] at h
      cases h
  | ok value =>
      rw [image] at h
      cases value with
      | object members =>
          obtain rfl := Except.ok.inj h
          have mem := SortedMap.mem_of_mem_ofList (SortedMap.get?_eq_some_iff.mp found)
          obtain ⟨⟨key, value⟩, member, same⟩ := List.mem_map.mp mem
          obtain ⟨-, same⟩ := Prod.mk.inj same
          obtain ⟨inner, represented⟩ := Datum.exists_toJson_of_mem member datum image
          cases value with
          | number m =>
              obtain rfl := FieldValue.number.inj same
              exact Datum.isSome_toBinary?_of_toJson inner represented
          | null => cases same
          | boolean b => cases same
          | string s => cases same
          | array items => cases same
          | object members => cases same
      | null => cases h
      | boolean b => cases h
      | number m => cases h
      | string s => cases h
      | array items => cases h

end RecordQuery
