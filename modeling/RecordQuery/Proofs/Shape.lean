import RecordQuery.Proofs.Json
import RecordQuery.Proofs.Record

/-!
# Objects of one shape

A record keeps a nested value as its text, and a text or a truth value as a text of its own. Values of
different kinds may end in the same text, but values of one kind do not, so objects of one shape have
equal records only if they are equal.
-/

namespace RecordQuery

namespace Json

/-- Whether two values are equal as members of an object: numbers as numbers of JSON, so that the zeros of
both signs are equal, and everything else exactly. -/
def Equal : Json → Json → Prop
  | number n, number m => n.same m = true
  | v, w => v = w

/-- Whether two values are objects with the same keys, and a relation holds of the two values under each
key. -/
def Matches (relation : Json → Json → Prop) : Json → Json → Prop
  | object members, object others =>
    ∀ key, Option.Rel relation (members.lookup key) (others.lookup key)
  | _, _ => False

/-- Whether two objects have the same keys, with values of one kind under each key. -/
def SameShape : Json → Json → Prop := Matches fun v w => v.kind = w.kind

/-- Whether two objects have the same keys, with equal values under each key. -/
def SameObject : Json → Json → Prop := Matches Equal

/-- Well-formed objects are one and the same exactly if they have the same value under each key, in
whichever order the keys were given. -/
theorem object_eq_iff {members others : List (String × Json)} (formed : (object members).WellFormed)
    (formed' : (object others).WellFormed) :
    object members = object others ↔ ∀ key, members.lookup key = others.lookup key := by
  constructor
  · intro same key
    rw [Json.object.inj same]
  · intro same
    rw [SortedMap.eq_of_lookup_eq formed.1 formed'.1 same]

end Json

namespace FieldValue

/-- Values of one kind are flattened to equal values exactly if they are equal. -/
theorem same_ofJson_iff {v w : Json} (kind : v.kind = w.kind) :
    (ofJson v).same (ofJson w) = true ↔ v.Equal w := by
  cases v with
  | null =>
      cases w with
      | null => exact iff_of_true rfl rfl
      | _ => cases kind
  | boolean b =>
      cases w with
      | boolean d =>
          change (toString b == toString d) = true ↔ Json.boolean b = Json.boolean d
          rw [beq_iff_eq, Json.boolean.injEq]
          cases b <;> cases d <;> decide
      | _ => cases kind
  | number n =>
      cases w with
      | number m => exact Iff.rfl
      | _ => cases kind
  | string s =>
      cases w with
      | string t => simp [ofJson, same, Json.Equal]
      | _ => cases kind
  | array items =>
      cases w with
      | array others =>
          change ((Json.array items).text == (Json.array others).text) = true ↔ _
          rw [beq_iff_eq]
          exact ⟨Json.text_injective, congrArg Json.text⟩
      | _ => cases kind
  | object members =>
      cases w with
      | object others =>
          change ((Json.object members).text == (Json.object others).text) = true ↔ _
          rw [beq_iff_eq]
          exact ⟨Json.text_injective, congrArg Json.text⟩
      | _ => cases kind

end FieldValue

namespace Record

/-- The fields of a well-formed object are its members. -/
theorem get?_of_ofJson {members : List (String × Json)} (formed : (Json.object members).WellFormed)
    (field : String) :
    (ofList (members.map fun member => (member.1, FieldValue.ofJson member.2))).get? field =
      (members.lookup field).map FieldValue.ofJson := by
  have ascending : (members.map fun member => (member.1, FieldValue.ofJson member.2)).Pairwise
      fun a b => a.1 < b.1 := List.pairwise_map.mpr formed.1
  rw [get?, ofList, SortedMap.get?, SortedMap.entries_ofList ascending, SortedMap.lookup_map]

/-- Objects of one shape have records, and the records are equal exactly if the objects are. -/
theorem same_iff_of_sameShape {v w : Json} (formed : v.WellFormed) (formed' : w.WellFormed)
    (shape : v.SameShape w) :
    ∃ r s, ofJson v = .ok r ∧ ofJson w = .ok s ∧ (r.same s = true ↔ v.SameObject w) := by
  cases v with
  | object members =>
      cases w with
      | object others =>
          refine ⟨_, _, rfl, rfl, ?_⟩
          rw [same_iff_get?]
          apply forall_congr'
          intro key
          rw [get?_of_ofJson formed, get?_of_ofJson formed']
          have kinds := shape key
          cases found : members.lookup key with
          | none =>
              rw [found] at kinds
              cases found' : others.lookup key with
              | none => exact iff_of_true rfl .none
              | some w =>
                  rw [found'] at kinds
                  cases kinds
          | some v =>
              rw [found] at kinds
              cases found' : others.lookup key with
              | none =>
                  rw [found'] at kinds
                  cases kinds
              | some w =>
                  rw [found'] at kinds
                  cases kinds with
                  | some kind =>
                      rw [Option.map_some, Option.map_some, Option.map_some, Option.map_some,
                        Option.some.injEq, ← FieldValue.same_iff, FieldValue.same_ofJson_iff kind]
                      exact ⟨.some, fun | .some equal => equal⟩
      | _ => exact absurd shape id
  | _ => exact absurd shape id

end Record

/-! ### Data -/

namespace Json

theorem wellFormedMembers_iff {members : List (String × Json)} :
    WellFormedMembers members ↔ ∀ member ∈ members, member.2.WellFormed := by
  induction members with
  | nil => exact iff_of_true trivial fun member mem => absurd mem List.not_mem_nil
  | cons member rest ih => rw [WellFormedMembers, ih, List.forall_mem_cons]

/-- The object of well-formed members is well formed, in whichever order they are given. -/
theorem wellFormed_ofMembers {members : List (String × Json)}
    (formed : WellFormedMembers members) : (ofMembers members).WellFormed := by
  refine ⟨(SortedMap.ofList members).ascending, wellFormedMembers_iff.mpr fun member mem => ?_⟩
  exact wellFormedMembers_iff.mp formed member (SortedMap.mem_of_mem_ofList mem)

end Json

namespace Datum

open Json

theorem wellFormed_jsonOfBinary (x : Option Binary64) : (jsonOfBinary x).WellFormed := by
  cases x with
  | none => trivial
  | some x => trivial

theorem wellFormed_bytes (values : List UInt8) :
    WellFormedItems (values.map fun b => Json.number (.integer b.toNat)) := by
  induction values with
  | nil => trivial
  | cons b rest ih => exact ⟨trivial, ih⟩

mutual

/-- Data are represented by well-formed values. -/
theorem wellFormed_of_toJson : ∀ (datum : Datum) {v : Json}, datum.toJson = .ok v → v.WellFormed
  | absent, v, h => by
      obtain rfl := Except.ok.inj h
      trivial
  | present value, v, h => wellFormed_of_toJson value (by simpa only [toJson] using h)
  | wrapped value, v, h => wellFormed_of_toJson value (by simpa only [toJson] using h)
  | boolean b, v, h => by
      obtain rfl := Except.ok.inj h
      trivial
  | integer n, v, h => by
      simp only [toJson] at h
      split at h
      · obtain rfl := Except.ok.inj h
        trivial
      · cases h
  | single x, v, h => by
      obtain rfl := Except.ok.inj h
      exact wellFormed_jsonOfBinary _
  | double x, v, h => by
      obtain rfl := Except.ok.inj h
      exact wellFormed_jsonOfBinary _
  | text s, v, h => by
      obtain rfl := Except.ok.inj h
      trivial
  | bytes values, v, h => by
      obtain rfl := Except.ok.inj h
      exact wellFormed_bytes values
  | tagged name value, v, h => by
      simp only [toJson, bind_eq_ok_iff] at h
      obtain ⟨image, represented, result⟩ := h
      obtain rfl := Except.ok.inj result
      exact ⟨List.pairwise_singleton .., wellFormed_of_toJson value represented, trivial⟩
  | sequence items, v, h => by
      simp only [toJson, bind_eq_ok_iff] at h
      obtain ⟨images, represented, result⟩ := h
      obtain rfl := Except.ok.inj result
      exact wellFormed_of_itemsToJson items represented
  | mapping entries, v, h => by
      simp only [toJson, bind_eq_ok_iff] at h
      obtain ⟨members, represented, result⟩ := h
      obtain rfl := Except.ok.inj result
      exact wellFormed_ofMembers (wellFormed_of_entriesToJson entries represented)
  | failing cause, v, h => by cases h

theorem wellFormed_of_itemsToJson : ∀ (items : List Datum) {images : List Json},
    itemsToJson items = .ok images → WellFormedItems images
  | [], images, h => by
      obtain rfl := Except.ok.inj h
      trivial
  | item :: rest, images, h => by
      simp only [itemsToJson, bind_eq_ok_iff] at h
      obtain ⟨image, first, others, more, result⟩ := h
      obtain rfl := Except.ok.inj result
      exact ⟨wellFormed_of_toJson item first, wellFormed_of_itemsToJson rest more⟩

theorem wellFormed_of_entriesToJson : ∀ (entries : List (Datum × Datum))
    {members : List (String × Json)}, entriesToJson entries = .ok members →
    WellFormedMembers members
  | [], members, h => by
      obtain rfl := Except.ok.inj h
      trivial
  | (key, value) :: rest, members, h => by
      simp only [entriesToJson, bind_eq_ok_iff] at h
      obtain ⟨name, -, image, first, others, more, result⟩ := h
      obtain rfl := Except.ok.inj result
      exact ⟨wellFormed_of_toJson value first, wellFormed_of_entriesToJson rest more⟩

end

end Datum

end RecordQuery
