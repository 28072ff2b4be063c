import RecordQuery.Proofs.Attribute

/-!
# Sequences of registrations

The registry of a list of records may be changed by registering further attributes. At every time a field
has the attribute that was registered for it last, or else the one that the records have given it, and a
registration answers with the attribute that stood there before.
-/

namespace RecordQuery

/-- The last image of a list is that of an item behind which there is none. -/
theorem getLast?_filterMap_eq_some_iff {α β : Type} {f : α → Option β} {items : List α} {value : β} :
    (items.filterMap f).getLast? = some value ↔
      ∃ before item after, items = before ++ item :: after ∧ f item = some value ∧
        ∀ later ∈ after, f later = none := by
  rw [List.getLast?_filterMap, List.findSome?_eq_some_iff]
  constructor
  · rintro ⟨after, item, before, whole, held, others⟩
    refine ⟨before.reverse, item, after.reverse, ?_, held, fun later mem =>
      others later (List.mem_reverse.mp mem)⟩
    rw [← List.reverse_reverse items, whole]
    simp
  · rintro ⟨before, item, after, rfl, held, others⟩
    exact ⟨after.reverse, item, before.reverse, by simp, held, fun later mem =>
      others later (List.mem_reverse.mp mem)⟩

/-- Whether the last record that carries the field holds a number there. -/
def LastHoldsNumber (records : List Record) (field : String) : Prop :=
  ∃ before r after n, records = before ++ r :: after ∧ r.get? field = some (.number n) ∧
    ∀ s ∈ after, s.get? field = none

/-- A field of a batch is numeric exactly if its last carrier holds a number. -/
theorem kindIn_eq_numeric_iff {records : List Record} {field : String} :
    kindIn records field = .numeric ↔ LastHoldsNumber records field := by
  have last : LastHoldsNumber records field ↔
      ∃ n, (records.filterMap fun r => r.get? field).getLast? = some (.number n) := by
    simp only [getLast?_filterMap_eq_some_iff]
    constructor
    · rintro ⟨before, r, after, n, split⟩
      exact ⟨n, before, r, after, split⟩
    · rintro ⟨n, before, r, after, split⟩
      exact ⟨before, r, after, n, split⟩
  rw [last, kindIn]
  cases (records.filterMap fun r => r.get? field).getLast? with
  | none => simp
  | some value => cases value <;> simp [FieldValue.isNumber]

namespace AttributeRegistry

/-- The registry after a sequence of registrations, and the answers of each of them. -/
def registerAll (registry : AttributeRegistry) :
    List Attribute → AttributeRegistry × List (Option Attribute)
  | [] => (registry, [])
  | a :: rest =>
      let (next, replaced) := registry.register a
      let (last, answers) := next.registerAll rest
      (last, replaced :: answers)

/-- Whether an attribute is that of a field after a sequence of registrations: the last one that was
registered for the field or, if there is none, that of the registry at the start. -/
def Standing (registry : AttributeRegistry) (calls : List Attribute) (field : String)
    (a : Attribute) : Prop :=
  (∃ before after, calls = before ++ a :: after ∧ a.name = field ∧ ∀ b ∈ after, b.name ≠ field) ∨
    (∀ b ∈ calls, b.name ≠ field) ∧ registry.get? field = some a

variable (registry : AttributeRegistry)

theorem registerAll_cons (a : Attribute) (rest : List Attribute) :
    registry.registerAll (a :: rest) =
      (((registry.register a).1.registerAll rest).1,
        (registry.register a).2 :: ((registry.register a).1.registerAll rest).2) := rfl

theorem fst_registerAll (calls : List Attribute) :
    (registry.registerAll calls).1 =
      calls.foldl (fun registry a => (registry.register a).1) registry := by
  induction calls generalizing registry with
  | nil => rfl
  | cons a rest ih => exact ih (registry.register a).1

theorem registerAll_append (front back : List Attribute) :
    registry.registerAll (front ++ back) =
      (((registry.registerAll front).1.registerAll back).1,
        (registry.registerAll front).2 ++ ((registry.registerAll front).1.registerAll back).2) := by
  induction front generalizing registry with
  | nil => rfl
  | cons a rest ih =>
      rw [List.cons_append, registerAll_cons, ih]
      rfl

theorem length_snd_registerAll (calls : List Attribute) :
    (registry.registerAll calls).2.length = calls.length := by
  induction calls generalizing registry with
  | nil => rfl
  | cons a rest ih => exact congrArg (· + 1) (ih (registry.register a).1)

/-- A registration is answered by what stood in its place. -/
theorem getElem?_snd_registerAll (before : List Attribute) (a : Attribute) (after : List Attribute) :
    (registry.registerAll (before ++ a :: after)).2[before.length]? =
      some ((registry.registerAll before).1.get? a.name) := by
  rw [registerAll_append, ← length_snd_registerAll registry before, List.getElem?_append_right
    (Nat.le_refl _), Nat.sub_self]
  rfl

/-- The registration of an attribute for a field, if it is one. -/
def registeredFor (field : String) (b : Attribute) : Option Attribute :=
  if b.name = field then some b else none

theorem get?_foldl_registrations (calls : List Attribute) (field : String) :
    (calls.foldl (fun registry a => (registry.register a).1) registry).get? field =
      (calls.filterMap (registeredFor field)).getLast?.or (registry.get? field) := by
  induction calls generalizing registry with
  | nil => rfl
  | cons a rest ih =>
      rw [List.foldl_cons, ih, get?_register, List.filterMap_cons, registeredFor]
      by_cases own : a.name = field
      · rw [if_pos own.symm, if_pos own, List.getLast?_cons]
        cases (rest.filterMap (registeredFor field)).getLast? <;> rfl
      · rw [if_neg (Ne.symm own), if_neg own]

/-- After any sequence of registrations a field has the attribute that stands. -/
theorem get?_registerAll_iff {calls : List Attribute} {field : String} {a : Attribute} :
    (registry.registerAll calls).1.get? field = some a ↔ registry.Standing calls field a := by
  rw [fst_registerAll, get?_foldl_registrations, Option.or_eq_some_iff, Standing]
  apply or_congr
  · rw [getLast?_filterMap_eq_some_iff]
    simp only [registeredFor, Option.ite_none_right_eq_some, Option.some.injEq, ite_eq_right_iff,
      reduceCtorEq, imp_false]
    constructor
    · rintro ⟨before, b, after, split, ⟨own, rfl⟩, others⟩
      exact ⟨before, after, split, own, others⟩
    · rintro ⟨before, after, split, own, others⟩
      exact ⟨before, a, after, split, ⟨own, rfl⟩, others⟩
  · rw [List.getLast?_eq_none_iff, List.filterMap_eq_nil_iff]
    simp only [registeredFor, ite_eq_right_iff, reduceCtorEq, imp_false, ne_eq]

/-- A registration leaves the attributes of all other fields. -/
theorem get?_registerAll_concat (calls : List Attribute) (a : Attribute) {field : String}
    (other : field ≠ a.name) :
    (registry.registerAll (calls ++ [a])).1.get? field =
      (registry.registerAll calls).1.get? field := by
  rw [registerAll_append]
  exact (get?_register _ a field).trans (if_neg other)

/-- The registry of a batch holds the fields that some record carries, by ascending name, each under its
own name and numeric exactly if its last carrier holds a number. Whatever is registered afterwards, a field
has the attribute that was registered for it last, every registration is answered by the one that it has
replaced, if there was any, and the attributes of other fields stay. -/
theorem classified_then_registered (records : List Record) (calls : List Attribute) :
    ((ofRecords records).names.Pairwise (· < ·)) ∧
    (∀ field, field ∈ (ofRecords records).names ↔ Carried records field) ∧
    (∀ field a, (field, a) ∈ (ofRecords records).attributes.entries →
      a.name = field ∧ (a.kind = .numeric ↔ LastHoldsNumber records field)) ∧
    (∀ field a, ((ofRecords records).registerAll calls).1.get? field = some a ↔
      (ofRecords records).Standing calls field a) ∧
    ((ofRecords records).registerAll calls).2.length = calls.length ∧
    ∀ before a after, calls = before ++ a :: after →
      (∃ replaced, ((ofRecords records).registerAll calls).2[before.length]? = some replaced ∧
        ∀ b, replaced = some b ↔ (ofRecords records).Standing before a.name b) ∧
      ∀ field, field ≠ a.name →
        ((ofRecords records).registerAll (before ++ [a])).1.get? field =
          ((ofRecords records).registerAll before).1.get? field := by
  refine ⟨?_, fun field => ?_, fun field a mem => ?_, fun field a => get?_registerAll_iff _,
    length_snd_registerAll _ calls, ?_⟩
  · exact List.pairwise_map.mpr (ofRecords records).attributes.ascending
  · rw [← contains_ofRecords_iff]
    exact SortedMap.mem_keys_iff
  · obtain ⟨-, rfl⟩ := get?_ofRecords_eq_some_iff.mp (SortedMap.get?_eq_some_iff.mpr mem)
    exact ⟨rfl, kindIn_eq_numeric_iff⟩
  · rintro before a after rfl
    refine ⟨⟨_, getElem?_snd_registerAll _ before a after, fun b => get?_registerAll_iff _⟩, ?_⟩
    exact fun field other => get?_registerAll_concat _ before a other

/-- Records of which only the first one holds numbers, and the second one carries one of its fields. -/
def turns : List Record :=
  [Record.ofList [("a", .number (.integer 7)), ("b", .number (.integer 1))],
    Record.ofList [("b", .null)], Record.empty]

/-- The field that no later record carries is numeric. It is registered as a text and then as a number
again, and the second of these registrations is answered by the first. -/
theorem classified_then_registered_of_turns :
    (∀ a, ("a", a) ∈ (ofRecords turns).attributes.entries → a.kind = .numeric) ∧
    ((ofRecords turns).registerAll [⟨"a", .text⟩, ⟨"c", .numeric⟩, ⟨"a", .numeric⟩]).2[2]? =
      some (some ⟨"a", .text⟩) ∧
    ((ofRecords turns).registerAll [⟨"a", .text⟩, ⟨"c", .numeric⟩, ⟨"a", .numeric⟩]).1.get? "a" =
      some ⟨"a", .numeric⟩ := by
  obtain ⟨-, -, entries, last, -, answers⟩ := classified_then_registered turns
    [⟨"a", .text⟩, ⟨"c", .numeric⟩, ⟨"a", .numeric⟩]
  refine ⟨fun a mem => ?_, ?_, ?_⟩
  · exact (entries "a" a mem).2.mpr ⟨[], _, _, .integer 7, rfl, by decide, by decide⟩
  · obtain ⟨⟨replaced, answered, stands⟩, -⟩ :=
      answers [⟨"a", .text⟩, ⟨"c", .numeric⟩] ⟨"a", .numeric⟩ [] rfl
    rw [← (stands ⟨"a", .text⟩).mpr (.inl ⟨[], [⟨"c", .numeric⟩], rfl, rfl, by simp⟩)]
    exact answered
  · exact (last "a" _).mpr (.inl ⟨[⟨"a", .text⟩, ⟨"c", .numeric⟩], [], rfl, rfl, by simp⟩)

end AttributeRegistry

end RecordQuery
