import RecordQuery.Proofs.Engine.Satisfaction
import RecordQuery.Proofs.Engine.Groups

/-!
# Texts in numeric fields

Under the rejecting policy the fields are indexed by ascending name, up to the first numeric one of which
some record holds a text that is no number. Only the distinct records are looked at, but equal records
hold the same texts, so the text that is reported is the first one of the whole batch.
-/

namespace RecordQuery

variable {α : Type}

theorem findSome?_congr {β γ : Type} {l : List β} {f g : β → Option γ}
    (agree : ∀ b ∈ l, f b = g b) : l.findSome? f = l.findSome? g := by
  induction l with
  | nil => rfl
  | cons b rest ih =>
      rw [List.findSome?_cons, List.findSome?_cons, agree b (List.mem_cons_self ..),
        ih fun c mem => agree c (List.mem_cons_of_mem _ mem)]

/-- A search passes over what a filter takes away. -/
theorem findSome?_filter_of_none {β γ : Type} {l : List β} {f : β → Option γ} {keep : β → Bool}
    (skipped : ∀ b ∈ l, keep b = false → f b = none) :
    (l.filter keep).findSome? f = l.findSome? f := by
  induction l with
  | nil => rfl
  | cons b rest ih =>
      have behind := ih fun c mem => skipped c (List.mem_cons_of_mem _ mem)
      cases kept : keep b with
      | true => rw [List.filter_cons_of_pos kept, List.findSome?_cons, List.findSome?_cons, behind]
      | false =>
          rw [List.filter_cons_of_neg (Bool.eq_false_iff.mp kept), behind, List.findSome?_cons,
            skipped b (List.mem_cons_self ..) kept]

/-- The text of a value that is a text and no number. -/
def FieldValue.misfit? : FieldValue → Option String
  | text s => if (Decimal.readNumber s).isNone then some s else none
  | _ => none

theorem FieldValue.misfit?_unsigned (v : FieldValue) : v.unsigned.misfit? = v.misfit? := by
  cases v <;> rfl

/-- The text of a field of the record that is a text and no number. -/
def Record.misfit? (field : String) (r : Record) : Option String :=
  (r.get? field).bind FieldValue.misfit?

/-- Equal records hold the same texts. -/
theorem Record.misfit?_of_same {r s : Record} (h : r.same s = true) (field : String) :
    r.misfit? field = s.misfit? field := by
  have unsigned (t : Record) : t.misfit? field =
      ((t.get? field).map FieldValue.unsigned).bind FieldValue.misfit? := by
    rw [misfit?, Option.bind_map]
    exact congrArg ((t.get? field).bind ·) (funext fun v => (v.misfit?_unsigned).symm)
  rw [unsigned, unsigned, get?_of_same h]

/-- Whether a field of which the last carrier holds a number also holds a text that spells no finite
number, the given one being that of the earliest record with such a text. -/
def Misfit (records : List Record) (field value : String) : Prop :=
  LastHoldsNumber records field ∧
    ∃ before r after, records = before ++ r :: after ∧ r.get? field = some (.text value) ∧
      (∀ q, ¬ SpellsFinite value q) ∧
      ∀ s ∈ before, ∀ text, s.get? field = some (.text text) → ∃ q, SpellsFinite text q

/-- Whether a field is the least one with a misfit. -/
def FirstMisfit (records : List Record) (field value : String) : Prop :=
  Misfit records field value ∧ ∀ other text, Misfit records other text → ¬ other < field

namespace Record

variable {r : Record} {field : String}

theorem misfit?_eq_some_iff {value : String} :
    r.misfit? field = some value ↔
      r.get? field = some (.text value) ∧ ∀ q, ¬ SpellsFinite value q := by
  rw [← readNumber_eq_none_iff, ← Option.isNone_iff_eq_none, misfit?]
  cases r.get? field with
  | none => simp
  | some v =>
      cases v with
      | text s =>
          simp only [Option.bind_some, FieldValue.misfit?, Option.ite_none_right_eq_some,
            Option.some.injEq, FieldValue.text.injEq]
          constructor
          · rintro ⟨unread, rfl⟩
            exact ⟨rfl, unread⟩
          · rintro ⟨rfl, unread⟩
            exact ⟨unread, rfl⟩
      | number n => simp [FieldValue.misfit?]
      | null => simp [FieldValue.misfit?]

theorem misfit?_eq_none_iff :
    r.misfit? field = none ↔
      ∀ text, r.get? field = some (.text text) → ∃ q, SpellsFinite text q := by
  simp only [Option.eq_none_iff_forall_ne_some, Ne, misfit?_eq_some_iff, not_and, not_forall,
    not_not]

end Record

/-- Misfits are found by the kinds of the fields and a search through the records. -/
theorem misfit_iff {records : List Record} {field value : String} :
    Misfit records field value ↔ kindIn records field = .numeric ∧
      records.findSome? (Record.misfit? field) = some value := by
  rw [Misfit, kindIn_eq_numeric_iff, List.findSome?_eq_some_iff]
  simp only [Record.misfit?_eq_some_iff, Record.misfit?_eq_none_iff, and_assoc]

theorem Misfit.carried {records : List Record} {field value : String}
    (h : Misfit records field value) : Carried records field := by
  obtain ⟨-, before, r, after, rfl, held, -⟩ := h
  exact ⟨r, List.mem_append_right before (List.mem_cons_self ..), Option.isSome_of_eq_some held⟩

/-- There is one first misfit at most. -/
theorem FirstMisfit.unique {records : List Record} {field value field' value' : String}
    (h : FirstMisfit records field value) (h' : FirstMisfit records field' value') :
    field = field' ∧ value = value' := by
  have same : field = field' :=
    String.le_antisymm (String.not_lt.mp (h.2 _ _ h'.1)) (String.not_lt.mp (h'.2 _ _ h.1))
  subst same
  exact ⟨rfl, Option.some.inj ((misfit_iff.mp h.1).2.symm.trans (misfit_iff.mp h'.1).2)⟩

namespace Postings

open IndexKey

/-- Under a numeric attribute the rejecting policy refuses the misfits. -/
theorem refusal?_numeric {field : String} {r : Record} (finite : r.Finite) :
    refusal? .reject ⟨field, .numeric⟩ r = (r.misfit? field).map (EvalError.mixedType field) := by
  unfold refusal? ofRecord Attribute.extract Record.misfit? isPresent Attribute.textOf
  cases carried : r.get? field with
  | none => simp
  | some v =>
      cases v with
      | number n =>
          obtain ⟨x, number⟩ := Option.isSome_iff_exists.mp (finite field n carried)
          simp [number, FieldValue.misfit?]
      | text s =>
          cases number : Decimal.readNumber s with
          | none => simp [number, FieldValue.misfit?, FieldValue.toText]
          | some x => simp [number, FieldValue.misfit?]
      | null => simp [FieldValue.misfit?]

/-- The posting lists of an attribute fail exactly if it is numeric and there is a misfit. -/
theorem ofRecords_reject_eq_error_iff {a : Attribute} {records : List Record}
    (finite : ∀ r ∈ records, r.Finite) {e : EvalError} :
    ofRecords .reject a records = .error e ↔ a.kind = .numeric ∧
      ∃ value, records.findSome? (Record.misfit? a.name) = some value ∧
        e = .mixedType a.name value := by
  obtain ⟨field, kind⟩ := a
  rw [ofRecords_eq_error_iff]
  cases kind with
  | text =>
      constructor
      · intro failed
        obtain ⟨r, -, refused⟩ := List.exists_of_findSome?_eq_some failed
        cases refused
      · rintro ⟨⟨⟩, -⟩
  | numeric =>
      have refused : records.findSome? (refusal? .reject ⟨field, .numeric⟩) =
          (records.findSome? (Record.misfit? field)).map (EvalError.mixedType field) := by
        rw [List.map_findSome?]
        exact findSome?_congr fun r mem => refusal?_numeric (finite r mem)
      rw [refused, Option.map_eq_some_iff]
      simp only [true_and, eq_comm]

end Postings

namespace QueryEngine

/-- A search among the first records of the groups finds what it finds among all records, if it does not
tell equal records apart. -/
theorem findSome?_groups {β : Type} {f : Record → Option β}
    (alike : ∀ r s, r.same s = true → f r = f s) (entries : List (Record × α)) :
    ((groups entries).map Prod.fst).findSome? f = (entries.map Prod.fst).findSome? f := by
  induction entries using groups.induct with
  | case1 =>
      rw [groups]
      rfl
  | case2 r object rest ih =>
      rw [groups, List.map_cons, List.map_cons, List.findSome?_cons, List.findSome?_cons]
      cases first : f r with
      | some b => rfl
      | none =>
          rw [ih, List.findSome?_map, List.findSome?_map, others]
          apply findSome?_filter_of_none
          intro entry _ dropped
          have same : r.same entry.1 = true := by simpa using dropped
          exact (alike r entry.1 same).symm.trans first

/-- The attributes of a batch have the kinds of its fields. -/
theorem kind_eq_kindIn {records : List Record} {a : Attribute}
    (mem : a ∈ (AttributeRegistry.ofRecords records).toList) : a.kind = kindIn records a.name := by
  have named := AttributeRegistry.wellNamed_ofRecords records
  obtain ⟨-, same⟩ := AttributeRegistry.get?_ofRecords_eq_some_iff.mp (named.mem_toList_iff.mp mem)
  exact congrArg Attribute.kind same

/-- The field of a misfit is one of the numeric attributes of its batch. -/
theorem Misfit.mem_toList {records : List Record} {field value : String}
    (misfit : Misfit records field value) :
    (⟨field, .numeric⟩ : Attribute) ∈ (AttributeRegistry.ofRecords records).toList := by
  have named := AttributeRegistry.wellNamed_ofRecords records
  rw [named.mem_toList_iff, AttributeRegistry.get?_ofRecords_eq_some_iff,
    (misfit_iff.mp misfit).1]
  exact ⟨misfit.carried, rfl⟩

/-- Indexing the attributes of a batch under the rejecting policy fails with its first misfit, or there is
no misfit. -/
theorem indexAttributes_cases {index : RecordIndex} {records : List Record}
    (finite : ∀ r ∈ index.records, r.Finite)
    (alike : ∀ field, index.records.findSome? (Record.misfit? field) =
      records.findSome? (Record.misfit? field)) :
    ((index.indexAttributes (.ofRecords records) .reject).2 = .ok () ∧
      ∀ field value, ¬ Misfit records field value) ∨
    ∃ field value, FirstMisfit records field value ∧
      (index.indexAttributes (.ofRecords records) .reject).2 = .error (.mixedType field value) := by
  have ascending := (AttributeRegistry.wellNamed_ofRecords records).ascending
  have refuses {field value : String} (misfit : Misfit records field value) :
      Postings.ofRecords .reject ⟨field, .numeric⟩ index.records =
        .error (.mixedType field value) := by
    rw [Postings.ofRecords_reject_eq_error_iff finite]
    exact ⟨rfl, value, (alike field).trans (misfit_iff.mp misfit).2, rfl⟩
  rcases result : RecordIndex.buildPostings .reject index.records SortedMap.empty
    (AttributeRegistry.ofRecords records).toList with ⟨map, outcome⟩
  have same : (index.indexAttributes (.ofRecords records) .reject).2 = outcome := by
    rw [RecordIndex.indexAttributes, result]
  obtain ⟨done, pending, whole, filed, ending⟩ :=
    RecordIndex.buildPostings_spec ascending result
  -- An attribute whose lists are in place has no misfit.
  have fitting {field value : String} (mem : (⟨field, .numeric⟩ : Attribute) ∈ done) :
      ¬ Misfit records field value := by
    intro misfit
    obtain ⟨postings, built, -⟩ := filed.own _ mem
    rw [refuses misfit] at built
    cases built
  rw [same]
  obtain ⟨rfl, success⟩ | ⟨a, rest, e, rfl, refused, failure⟩ := ending
  · refine .inl ⟨success, fun field value misfit => ?_⟩
    have mem := Misfit.mem_toList misfit
    rw [whole, List.append_nil] at mem
    exact fitting mem misfit
  · obtain ⟨numeric, value, held, rfl⟩ :=
      (Postings.ofRecords_reject_eq_error_iff finite).mp refused
    have mem : a ∈ (AttributeRegistry.ofRecords records).toList := by
      rw [whole]
      exact List.mem_append_right done (List.mem_cons_self ..)
    refine .inr ⟨a.name, value, ⟨misfit_iff.mpr ⟨?_, ?_⟩, ?_⟩, failure⟩
    · rw [← kind_eq_kindIn mem, numeric]
    · rw [← alike, held]
    · intro other text misfit less
      rw [whole, List.pairwise_append, List.pairwise_cons] at ascending
      obtain ⟨-, ⟨behind, -⟩, -⟩ := ascending
      have place := Misfit.mem_toList misfit
      rw [whole, List.mem_append, List.mem_cons] at place
      obtain early | here | late := place
      · exact fitting early misfit
      · rw [← here] at less
        exact String.lt_irrefl _ less
      · exact String.lt_irrefl _ (String.lt_trans less (behind _ late))

section Indexing

variable {index : RecordIndex} {records : List Record} {policy : MixedTypePolicy}
  (finite : ∀ r ∈ index.records, r.Finite)
  (alike : ∀ field, index.records.findSome? (Record.misfit? field) =
    records.findSome? (Record.misfit? field))

include finite alike

/-- The attributes of a batch can be indexed unless the policy is the rejecting one and there is a
misfit. -/
theorem indexAttributes_eq_ok_iff :
    (index.indexAttributes (.ofRecords records) policy).2 = .ok () ↔
      (policy = .reject → ∀ field value, ¬ Misfit records field value) := by
  cases policy with
  | textFallback =>
      obtain ⟨built, success⟩ :=
        RecordIndex.exists_indexAttributes_textFallback index (.ofRecords records)
      rw [success]
      simp
  | reject =>
      obtain ⟨success, fitting⟩ | ⟨field, value, first, failure⟩ :=
        indexAttributes_cases finite alike
      · rw [success]
        exact ⟨fun _ _ => fitting, fun _ => rfl⟩
      · rw [failure]
        constructor
        · rintro ⟨⟩
        · exact fun fitting => absurd first.1 (fitting rfl field value)

/-- Indexing the attributes of a batch fails exactly under the rejecting policy where there is a misfit,
and it names the first one. -/
theorem indexAttributes_eq_error_iff {e : EvalError} :
    (index.indexAttributes (.ofRecords records) policy).2 = .error e ↔
      policy = .reject ∧ ∃ field value, FirstMisfit records field value ∧
        e = .mixedType field value := by
  cases policy with
  | textFallback =>
      obtain ⟨built, success⟩ :=
        RecordIndex.exists_indexAttributes_textFallback index (.ofRecords records)
      rw [success]
      simp
  | reject =>
      obtain ⟨success, fitting⟩ | ⟨field, value, first, failure⟩ :=
        indexAttributes_cases finite alike
      · rw [success]
        constructor
        · rintro ⟨⟩
        · rintro ⟨-, field, value, first, -⟩
          exact absurd first.1 (fitting field value)
      · rw [failure]
        constructor
        · rintro ⟨⟩
          exact ⟨rfl, field, value, first, rfl⟩
        · rintro ⟨-, field', value', first', rfl⟩
          obtain ⟨rfl, rfl⟩ := first.unique first'
          rfl

end Indexing

end QueryEngine

end RecordQuery
