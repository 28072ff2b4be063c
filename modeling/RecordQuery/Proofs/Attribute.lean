import RecordQuery.Attribute
import RecordQuery.Proofs.SortedMap

/-!
# Attributes of a batch

The registry of a list of records holds the fields that some record carries, each with the kind that
its last carrier gives it.
-/

namespace RecordQuery

/-- Whether some record carries the field. -/
def Carried (records : List Record) (field : String) : Prop :=
  ∃ r ∈ records, (r.get? field).isSome = true

/-- The kind of a field in a list of records: numeric if the last record that carries it holds a number
there, and text otherwise. -/
def kindIn (records : List Record) (field : String) : AttributeKind :=
  match (records.filterMap fun r => r.get? field).getLast? with
  | some value => if value.isNumber then .numeric else .text
  | none => .text

namespace AttributeRegistry

theorem get?_register (registry : AttributeRegistry) (a : Attribute) (field : String) :
    (registry.register a).1.get? field = if field = a.name then some a else registry.get? field :=
  SortedMap.get?_insert ..

theorem get?_foldl_register {entries : List (String × FieldValue)}
    (ascending : entries.Pairwise fun a b => a.1 < b.1) (registry : AttributeRegistry)
    (field : String) :
    (entries.foldl (fun registry (name, value) =>
      (registry.register (Attribute.classify name value)).1) registry).get? field =
      ((entries.lookup field).map (Attribute.classify field)).or (registry.get? field) := by
  induction entries generalizing registry with
  | nil => rfl
  | cons entry rest ih =>
      obtain ⟨name, value⟩ := entry
      rw [List.foldl_cons, ih (List.pairwise_cons.mp ascending).2, get?_register,
        SortedMap.lookup_cons_ite]
      by_cases same : field = name
      · subst same
        rw [SortedMap.lookup_eq_none_of_ascending ascending]
        simp [Attribute.classify]
      · simp [Attribute.classify, same]

/-- A further record decides on the fields that it carries and leaves all others. -/
theorem get?_addRecord (registry : AttributeRegistry) (r : Record) (field : String) :
    (registry.addRecord r).get? field =
      ((r.get? field).map (Attribute.classify field)).or (registry.get? field) :=
  get?_foldl_register r.fields.ascending registry field

theorem get?_foldl_addRecord (records : List Record) (registry : AttributeRegistry)
    (field : String) :
    (records.foldl addRecord registry).get? field =
      ((records.filterMap fun r => r.get? field).getLast?.map (Attribute.classify field)).or
        (registry.get? field) := by
  induction records generalizing registry with
  | nil => rfl
  | cons r rest ih =>
      rw [List.foldl_cons, ih, get?_addRecord]
      cases carried : r.get? field with
      | none => simp [carried]
      | some value =>
          have first : (r :: rest).filterMap (fun r => r.get? field) =
              value :: rest.filterMap fun r => r.get? field := List.filterMap_cons_some carried
          rw [first, List.getLast?_cons]
          cases (rest.filterMap fun r => r.get? field).getLast? <;> rfl

/-- The attribute of a field is suggested by the last record that carries it. -/
theorem get?_ofRecords (records : List Record) (field : String) :
    (ofRecords records).get? field =
      (records.filterMap fun r => r.get? field).getLast?.map (Attribute.classify field) := by
  rw [ofRecords, get?_foldl_addRecord]
  exact Option.or_none

/-- The registry holds the fields that are carried, each under its kind. -/
theorem get?_ofRecords_eq_some_iff {records : List Record} {field : String} {a : Attribute} :
    (ofRecords records).get? field = some a ↔
      Carried records field ∧ a = ⟨field, kindIn records field⟩ := by
  rw [get?_ofRecords]
  unfold kindIn
  cases last : (records.filterMap fun r => r.get? field).getLast? with
  | none =>
      have noCarrier : ¬ Carried records field := by
        rintro ⟨r, mem, carried⟩
        obtain ⟨value, found⟩ := Option.isSome_iff_exists.mp carried
        have member : value ∈ records.filterMap fun r => r.get? field :=
          List.mem_filterMap.mpr ⟨r, mem, found⟩
        rw [List.getLast?_eq_none_iff.mp last] at member
        exact List.not_mem_nil member
      simp [noCarrier]
  | some value =>
      have carried : Carried records field := by
        obtain ⟨r, mem, found⟩ := List.mem_filterMap.mp (List.mem_of_getLast? last)
        exact ⟨r, mem, Option.isSome_iff_exists.mpr ⟨value, found⟩⟩
      rw [Option.map_some, Option.some.injEq]
      exact ⟨fun own => ⟨carried, own.symm⟩, fun own => own.2.symm⟩

theorem contains_ofRecords_iff {records : List Record} {field : String} :
    (ofRecords records).contains field = true ↔ Carried records field := by
  change ((ofRecords records).get? field).isSome = true ↔ _
  rw [Option.isSome_iff_exists]
  simp only [get?_ofRecords_eq_some_iff, exists_and_left, exists_eq, and_true]

/-- Whether every attribute stands under its own name. -/
def WellNamed (registry : AttributeRegistry) : Prop :=
  ∀ field a, registry.get? field = some a → a.name = field

theorem wellNamed_ofRecords (records : List Record) : (ofRecords records).WellNamed := by
  intro field a found
  rw [(get?_ofRecords_eq_some_iff.mp found).2]

/-- The attributes of a registry are those that are found under their names. -/
theorem WellNamed.mem_toList_iff {registry : AttributeRegistry} (named : registry.WellNamed)
    {a : Attribute} : a ∈ registry.toList ↔ registry.get? a.name = some a := by
  rw [toList, SortedMap.values, List.mem_map]
  constructor
  · rintro ⟨⟨field, b⟩, mem, rfl⟩
    have found := SortedMap.get?_eq_some_iff.mpr mem
    rw [named field b found]
    exact found
  · intro found
    exact ⟨(a.name, a), SortedMap.get?_eq_some_iff.mp found, rfl⟩

/-- The attributes of a registry are listed by ascending name. -/
theorem WellNamed.ascending {registry : AttributeRegistry} (named : registry.WellNamed) :
    registry.toList.Pairwise fun a b => a.name < b.name := by
  rw [toList, SortedMap.values, List.pairwise_map]
  apply registry.attributes.ascending.imp_of_mem
  intro entry other mem mem' less
  have own := named entry.1 entry.2 (SortedMap.get?_eq_some_iff.mpr mem)
  have own' := named other.1 other.2 (SortedMap.get?_eq_some_iff.mpr mem')
  rwa [own, own']

end AttributeRegistry

end RecordQuery
