import Mathlib.Data.List.Induction
import RecordQuery.Predicate

/-!
# Truth of predicates

A predicate holds by the truth of its leaves. Its list of fields is that of the leaves without what
repeats an earlier field.
-/

namespace RecordQuery

section Repetitions

variable {α : Type} [BEq α] [LawfulBEq α]

/-- The last item of a list is erased exactly if it repeats an earlier one. -/
theorem eraseDups_concat (xs : List α) (x : α) :
    (xs ++ [x]).eraseDups = if x ∈ xs then xs.eraseDups else xs.eraseDups ++ [x] := by
  rw [List.eraseDups_append]
  by_cases repeated : x ∈ xs
  · simp [List.removeAll, repeated]
  · simp [List.removeAll, repeated, List.eraseDups_cons]

theorem nodup_eraseDups (xs : List α) : xs.eraseDups.Nodup := by
  induction xs using List.reverseRecOn with
  | nil => exact .nil
  | append_singleton xs x ih =>
      rw [eraseDups_concat]
      by_cases repeated : x ∈ xs
      · rwa [if_pos repeated]
      · rw [if_neg repeated]
        refine List.nodup_append.mpr ⟨ih, List.pairwise_singleton _ x, ?_⟩
        intro y mem z last same
        obtain rfl := List.mem_singleton.mp last
        exact repeated (List.mem_eraseDups.mp (same ▸ mem))

/-- What repeats an earlier item is never the first item with a property. -/
theorem find?_eraseDups (test : α → Bool) (xs : List α) :
    xs.eraseDups.find? test = xs.find? test := by
  induction xs using List.reverseRecOn with
  | nil => rfl
  | append_singleton xs x ih =>
      rw [eraseDups_concat, List.find?_append]
      by_cases repeated : x ∈ xs
      · rw [if_pos repeated, ih]
        cases found : xs.find? test with
        | some y => rfl
        | none => simpa using List.find?_eq_none.mp found x repeated
      · rw [if_neg repeated, List.find?_append, ih]

end Repetitions

namespace Predicate

mutual

/-- Whether a predicate holds, by the truth of its equality tests. -/
def holds (test : String → String → Bool) : Predicate → Bool
  | equal field value => test field value
  | and children => holdsAll test children
  | or children => holdsAny test children

/-- Whether every predicate of a list holds. -/
def holdsAll (test : String → String → Bool) : List Predicate → Bool
  | [] => true
  | child :: rest => holds test child && holdsAll test rest

/-- Whether some predicate of a list holds. -/
def holdsAny (test : String → String → Bool) : List Predicate → Bool
  | [] => false
  | child :: rest => holds test child || holdsAny test rest

end

variable {test : String → String → Bool}

theorem holds_and_iff {children : List Predicate} :
    (and children).holds test = true ↔ ∀ child ∈ children, child.holds test = true := by
  rw [holds]
  induction children with
  | nil => simp [holdsAll]
  | cons child rest ih => simp [holdsAll, ih]

theorem holds_or_iff {children : List Predicate} :
    (or children).holds test = true ↔ ∃ child ∈ children, child.holds test = true := by
  rw [holds]
  induction children with
  | nil => simp [holdsAny]
  | cons child rest ih => simp [holdsAny, ih]

mutual

/-- The truth of a predicate depends on the tests of its own fields only. -/
theorem holds_congr {test test' : String → String → Bool} :
    ∀ p : Predicate, (∀ field ∈ p.leafFields, ∀ value, test field value = test' field value) →
      p.holds test = p.holds test'
  | equal field value, agree => agree field (List.mem_singleton_self field) value
  | and children, agree => (holdsAll_congr children agree).1
  | or children, agree => (holdsAll_congr children agree).2

theorem holdsAll_congr {test test' : String → String → Bool} :
    ∀ children : List Predicate,
      (∀ field ∈ leafFieldsAll children, ∀ value, test field value = test' field value) →
      holdsAll test children = holdsAll test' children ∧
        holdsAny test children = holdsAny test' children
  | [], _ => ⟨rfl, rfl⟩
  | child :: rest, agree => by
      have first := holds_congr child fun field mem =>
        agree field (List.mem_append_left _ mem)
      have others := holdsAll_congr rest fun field mem =>
        agree field (List.mem_append_right _ mem)
      rw [holdsAll, holdsAll, holdsAny, holdsAny, first, others.1, others.2]
      exact ⟨rfl, rfl⟩

end

mutual

/-- The equality tests of all leaves, from left to right, with repetitions. -/
def leafTests : Predicate → List (String × String)
  | equal field value => [(field, value)]
  | and children => leafTestsAll children
  | or children => leafTestsAll children

/-- The equality tests of all leaves of a list of trees, from left to right, with repetitions. -/
def leafTestsAll : List Predicate → List (String × String)
  | [] => []
  | child :: rest => leafTests child ++ leafTestsAll rest

end

mutual

/-- There is no negation: where more equality tests hold, a predicate that has held still does. -/
theorem holds_mono {test test' : String → String → Bool} : ∀ p : Predicate,
    (∀ field value, (field, value) ∈ p.leafTests → test field value = true →
      test' field value = true) →
    p.holds test = true → p.holds test' = true
  | equal field value, more => more field value (List.mem_singleton_self _)
  | and children, more => (holdsAll_mono children more).1
  | or children, more => (holdsAll_mono children more).2

theorem holdsAll_mono {test test' : String → String → Bool} : ∀ children : List Predicate,
    (∀ field value, (field, value) ∈ leafTestsAll children → test field value = true →
      test' field value = true) →
    (holdsAll test children = true → holdsAll test' children = true) ∧
      (holdsAny test children = true → holdsAny test' children = true)
  | [], _ => ⟨id, id⟩
  | child :: rest, more => by
      have first := holds_mono child fun field value mem =>
        more field value (List.mem_append_left _ mem)
      have others := holdsAll_mono rest fun field value mem =>
        more field value (List.mem_append_right _ mem)
      rw [holdsAll, holdsAll, holdsAny, holdsAny, Bool.and_eq_true, Bool.and_eq_true,
        Bool.or_eq_true, Bool.or_eq_true]
      exact ⟨And.imp first others.1, Or.imp first others.2⟩

end

mutual

/-- Adding the fields of a tree behind those of earlier leaves erases what repeats one of them. -/
theorem addFields_eraseDups : ∀ (before : List String) (p : Predicate),
    p.addFields before.eraseDups = (before ++ p.leafFields).eraseDups
  | before, equal own _ => by
      rw [addFields, leafFields, eraseDups_concat]
      simp only [List.mem_eraseDups]
  | before, and children => addFieldsAll_eraseDups before children
  | before, or children => addFieldsAll_eraseDups before children

theorem addFieldsAll_eraseDups : ∀ (before : List String) (children : List Predicate),
    addFieldsAll before.eraseDups children = (before ++ leafFieldsAll children).eraseDups
  | before, [] => by rw [addFieldsAll, leafFieldsAll, List.append_nil]
  | before, child :: rest => by
      rw [addFieldsAll, addFields_eraseDups before child, addFieldsAll_eraseDups _ rest,
        leafFieldsAll, List.append_assoc]

end

/-- The list of fields is that of the leaves without what repeats an earlier field. -/
theorem fields_eq_eraseDups (p : Predicate) : p.fields = p.leafFields.eraseDups :=
  addFields_eraseDups [] p

/-- The list of fields names exactly the fields of the leaves. -/
theorem mem_fields {field : String} {p : Predicate} : field ∈ p.fields ↔ field ∈ p.leafFields := by
  rw [fields_eq_eraseDups, List.mem_eraseDups]

/-- The first field with a property is that of the leftmost leaf with it. -/
theorem find?_fields (test : String → Bool) (p : Predicate) :
    p.fields.find? test = p.leafFields.find? test := by
  rw [fields_eq_eraseDups, find?_eraseDups]

/-- Whether the field is that of the leftmost leaf of which the field is not known. -/
def FirstUnknown (known : String → Prop) (p : Predicate) (field : String) : Prop :=
  ∃ before after, p.leafFields = before ++ field :: after ∧ (∀ other ∈ before, known other) ∧
    ¬ known field

theorem find?_fields_eq_some_iff {known : String → Bool} {p : Predicate} {field : String} :
    (p.fields.find? fun field => !known field) = some field ↔
      p.FirstUnknown (fun field => known field = true) field := by
  rw [find?_fields, List.find?_eq_some_iff_append, FirstUnknown]
  simp only [Bool.not_eq_true', Bool.not_not, Bool.not_eq_true]
  constructor
  · rintro ⟨unknown, before, after, split, others⟩
    exact ⟨before, after, split, others, unknown⟩
  · rintro ⟨before, after, split, others, unknown⟩
    exact ⟨unknown, before, after, split, others⟩

end Predicate

end RecordQuery
