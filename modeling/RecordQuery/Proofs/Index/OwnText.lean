import RecordQuery.Proofs.Decimal.Writing
import RecordQuery.Proofs.Index.States

/-!
# Asking for the text of a value

The key of a record is the key of one literal in particular, the text of its own value. So a record is
found by that text, whatever the kind of the field, and it is found by another text only if both are
read as the same number.
-/

namespace RecordQuery

open Decimal

namespace IndexKey

/-- The key of a literal under the numeric kind, by what the literal is read as. -/
theorem forLiteral_numeric (field literal : String) :
    forLiteral ⟨field, .numeric⟩ literal =
      ((readNumber literal).map Binary.unsignedZero).elim (text literal) number := by
  unfold forLiteral
  cases readNumber literal <;> rfl

/-- The key of a record is the key of the text of its value. -/
theorem keyOf_eq_forLiteral_textOf (a : Attribute) (r : Record) :
    keyOf a r = forLiteral a (a.textOf r) := by
  obtain ⟨field, kind⟩ := a
  cases kind with
  | text => rfl
  | numeric =>
      rw [forLiteral_numeric]
      unfold keyOf Attribute.extract Attribute.textOf
      cases held : r.get? field with
      | none => simp [FieldValue.toText, readNumber_null]
      | some value =>
          cases value with
          | null => simp [FieldValue.toText, readNumber_null]
          | text s => cases read : readNumber s <;> simp [FieldValue.toText, read, ofNumber]
          | number n =>
              -- what is written of a number is read as its nearest value
              simp only [Option.getD_some, FieldValue.toText, Number.readNumber_text]
              cases n.toBinary? <;> rfl

/-- The key of a literal that is compared as text is that of no other literal. -/
theorem eq_of_forLiteral_eq {a : Attribute} {s literal : String}
    (plain : a.kind = .text ∨ readNumber literal = none)
    (same : forLiteral a s = forLiteral a literal) : s = literal := by
  obtain ⟨field, kind⟩ := a
  cases kind with
  | text => exact IndexKey.text.inj same
  | numeric =>
      have noNumber : readNumber literal = none := plain.resolve_left AttributeKind.noConfusion
      rw [forLiteral_numeric, forLiteral_numeric, noNumber] at same
      cases read : readNumber s with
      | none =>
          rw [read] at same
          exact IndexKey.text.inj same
      | some x =>
          rw [read] at same
          cases same

/-- A record has the key of the literals that are the text of its value. -/
theorem keyOf_eq_forLiteral_of_textOf_eq {a : Attribute} {r : Record} {literal : String}
    (own : a.textOf r = literal) : keyOf a r = forLiteral a literal :=
  own ▸ keyOf_eq_forLiteral_textOf a r

/-- Where texts are compared a record has the key of no other literal. -/
theorem textOf_eq_of_keyOf_eq_forLiteral {a : Attribute} {r : Record} {literal : String}
    (plain : a.kind = .text ∨ readNumber literal = none)
    (same : keyOf a r = forLiteral a literal) : a.textOf r = literal :=
  eq_of_forLiteral_eq plain ((keyOf_eq_forLiteral_textOf a r).symm.trans same)

/-- A field that is compared as numbers instead of as text keeps its matches. -/
theorem keyOf_numeric_of_text {field literal : String} {r : Record}
    (same : keyOf ⟨field, .text⟩ r = forLiteral ⟨field, .text⟩ literal) :
    keyOf ⟨field, .numeric⟩ r = forLiteral ⟨field, .numeric⟩ literal := by
  have own : Attribute.textOf ⟨field, .text⟩ r = literal :=
    textOf_eq_of_keyOf_eq_forLiteral (.inl rfl) same
  exact keyOf_eq_forLiteral_of_textOf_eq own

/-- It wins none for a literal that is no number. -/
theorem keyOf_text_of_numeric {field literal : String} {r : Record}
    (noNumber : readNumber literal = none)
    (same : keyOf ⟨field, .numeric⟩ r = forLiteral ⟨field, .numeric⟩ literal) :
    keyOf ⟨field, .text⟩ r = forLiteral ⟨field, .text⟩ literal := by
  have own : Attribute.textOf ⟨field, .numeric⟩ r = literal :=
    textOf_eq_of_keyOf_eq_forLiteral (.inr noNumber) same
  exact keyOf_eq_forLiteral_of_textOf_eq own

end IndexKey

/-- The registry in which a field is compared as numbers. -/
def AttributeRegistry.asNumeric (registry : AttributeRegistry) (field : String) :
    AttributeRegistry :=
  (registry.register ⟨field, .numeric⟩).1

namespace RecordIndex

/-- A record passes the tests of its fields for the literals of which it has the keys. -/
theorem Indexed.passes_iff {index : RecordIndex} {registry : AttributeRegistry}
    {policy : MixedTypePolicy} (indexed : index.Indexed registry policy) {i : RecordId}
    {field literal : String} :
    index.passes registry i field literal = true ↔
      ∃ a r, registry.get? field = some a ∧ index.records[i]? = some r ∧
        IndexKey.keyOf a r = IndexKey.forLiteral a literal := by
  rw [passes, decide_eq_true_eq]
  cases found : registry.get? field with
  | none => simp [matching, found]
  | some a =>
      rw [(indexed.mem_matching_equal found literal).2]
      simp

section Reclassification

variable {index index' : RecordIndex} {registry : AttributeRegistry} {policy : MixedTypePolicy}
  {field : String}

/-- A record that passes a test as long as a field is compared as text still passes it when the field is
compared as numbers. -/
theorem passes_asNumeric (asText : registry.get? field = some ⟨field, .text⟩)
    (indexed : index.Indexed registry policy)
    (indexed' : index'.Indexed (registry.asNumeric field) policy)
    (stored : index'.records = index.records) {i : RecordId} {other literal : String}
    (passed : index.passes registry i other literal = true) :
    index'.passes (registry.asNumeric field) i other literal = true := by
  obtain ⟨a, r, found, record, same⟩ := indexed.passes_iff.mp passed
  rw [indexed'.passes_iff, stored, AttributeRegistry.asNumeric, AttributeRegistry.get?_register]
  by_cases own : other = field
  · subst own
    obtain rfl := Option.some.inj (asText.symm.trans found)
    exact ⟨_, r, if_pos rfl, record, IndexKey.keyOf_numeric_of_text same⟩
  · exact ⟨a, r, (if_neg own).trans found, record, same⟩

/-- A record that passes a test when a field is compared as numbers passes it as well when the field is
compared as text, unless a number is asked of the field. -/
theorem passes_of_passes_asNumeric (asText : registry.get? field = some ⟨field, .text⟩)
    (indexed : index.Indexed registry policy)
    (indexed' : index'.Indexed (registry.asNumeric field) policy)
    (stored : index'.records = index.records) {i : RecordId} {other literal : String}
    (noNumber : other = field → readNumber literal = none)
    (passed : index'.passes (registry.asNumeric field) i other literal = true) :
    index.passes registry i other literal = true := by
  obtain ⟨a, r, found, record, same⟩ := indexed'.passes_iff.mp passed
  rw [AttributeRegistry.asNumeric, AttributeRegistry.get?_register] at found
  rw [stored] at record
  by_cases own : other = field
  · subst own
    obtain rfl := Option.some.inj ((if_pos rfl).symm.trans found)
    exact indexed.passes_iff.mpr
      ⟨_, r, asText, record, IndexKey.keyOf_text_of_numeric (noNumber rfl) same⟩
  · exact indexed.passes_iff.mpr ⟨a, r, (if_neg own).symm.trans found, record, same⟩

/-- The answer of a predicate grows when a field is compared as numbers instead of as text. It stays as it
is if no number is asked of the field. -/
theorem matching_asNumeric (asText : registry.get? field = some ⟨field, .text⟩)
    (indexed : index.Indexed registry policy)
    (indexed' : index'.Indexed (registry.asNumeric field) policy)
    (stored : index'.records = index.records) (p : Predicate) :
    (∀ i ∈ index.matching registry p, i ∈ index'.matching (registry.asNumeric field) p) ∧
    ((∀ literal, (field, literal) ∈ p.leafTests → readNumber literal = none) →
      index'.matching (registry.asNumeric field) p = index.matching registry p) := by
  obtain ⟨ascending, members⟩ := matching_spec indexed.listed p
  obtain ⟨ascending', members'⟩ := matching_spec indexed'.listed p
  have size : index'.size = index.size := congrArg List.length stored
  have grows (i : RecordId) (mem : i ∈ index.matching registry p) :
      i ∈ index'.matching (registry.asNumeric field) p := by
    obtain ⟨bound, holds⟩ := (members i).mp mem
    refine (members' i).mpr ⟨size ▸ bound, p.holds_mono (fun other literal _ => ?_) holds⟩
    exact passes_asNumeric asText indexed indexed' stored
  refine ⟨grows, fun noNumber => ascending'.ext ascending fun i => ⟨fun mem => ?_, grows i⟩⟩
  obtain ⟨bound, holds⟩ := (members' i).mp mem
  refine (members i).mpr ⟨size ▸ bound, p.holds_mono (fun other literal asked => ?_) holds⟩
  apply passes_of_passes_asNumeric asText indexed indexed' stored
  rintro rfl
  exact noNumber literal asked

end Reclassification

/-- Text equality suffices for a match, and it is necessary unless a number is asked of a numeric field.
So an index finds every record that it holds by the text of its own value in any field, and a field that
is compared as numbers instead of as text can only win matches, and wins none for literals that are no
numbers. -/
theorem text_equality_suffices :
    (∀ (a : Attribute) (r : Record) (literal : String),
      (a.textOf r = literal →
        IndexKey.ofRecord .textFallback a r = .ok (IndexKey.forLiteral a literal)) ∧
      (a.kind = .text ∨ readNumber literal = none →
        IndexKey.ofRecord .textFallback a r = .ok (IndexKey.forLiteral a literal) →
        a.textOf r = literal)) ∧
    ∀ (index : RecordIndex) (registry : AttributeRegistry), registry.Registered →
      ∃ built, index.indexAttributes registry .textFallback = (built, .ok ()) ∧
        (∀ field a i r, registry.get? field = some a → index.records[i]? = some r →
          ∃ ids, built.evaluate (.equal field (a.textOf r)) registry = .ok ids ∧ i ∈ ids) ∧
        ∀ field, registry.get? field = some ⟨field, .text⟩ →
          ∃ built', index.indexAttributes (registry.asNumeric field) .textFallback =
              (built', .ok ()) ∧
            ∀ p ids, built.evaluate p registry = .ok ids →
              ∃ ids', built'.evaluate p (registry.asNumeric field) = .ok ids' ∧
                (∀ i ∈ ids, i ∈ ids') ∧
                ((∀ literal, (field, literal) ∈ p.leafTests → readNumber literal = none) →
                  ids' = ids) := by
  constructor
  · intro a r literal
    rw [IndexKey.ofRecord_textFallback, Except.ok.injEq]
    exact ⟨IndexKey.keyOf_eq_forLiteral_of_textOf_eq, IndexKey.textOf_eq_of_keyOf_eq_forLiteral⟩
  · intro index registry registered
    obtain ⟨built, success⟩ := index.exists_indexAttributes_textFallback registry
    obtain ⟨stored, indexed⟩ := indexed_of_indexAttributes registered.wellNamed success
    refine ⟨built, success, ?_, ?_⟩
    · intro field a i r found record
      have known : registry.contains field = true := by
        change (registry.get? field).isSome = true
        rw [found]
        rfl
      refine ⟨_, evaluate_eq_ok_iff.mpr ⟨?_, rfl⟩, ?_⟩
      · exact List.forall_mem_singleton.mpr known
      · rw [(indexed.mem_matching_equal found _).2, stored]
        exact ⟨r, record, IndexKey.keyOf_eq_forLiteral_textOf a r⟩
    · intro field asText
      obtain ⟨built', success'⟩ :=
        index.exists_indexAttributes_textFallback (registry.asNumeric field)
      obtain ⟨stored', indexed'⟩ :=
        indexed_of_indexAttributes (registered.register ⟨field, .numeric⟩).wellNamed success'
      refine ⟨built', success', fun p ids evaluated => ?_⟩
      obtain ⟨known, rfl⟩ := evaluate_eq_ok_iff.mp evaluated
      refine ⟨_, evaluate_eq_ok_iff.mpr ⟨fun other mem => ?_, rfl⟩,
        matching_asNumeric asText indexed indexed' (stored'.trans stored.symm) p⟩
      change ((registry.asNumeric field).get? other).isSome = true
      rw [AttributeRegistry.asNumeric, AttributeRegistry.get?_register]
      split
      · rfl
      · exact known other mem

/-- A record with a negative zero, one with a text that reads as zero, and one without the field. -/
def zeroAndText : RecordIndex :=
  ⟨[Record.ofList [("a", .number (.float ⟨true, 0, infinity_double_pos⟩))],
    Record.ofList [("a", .text "0")], Record.empty], IdMap.empty, SortedMap.empty⟩

/-- Compared as text, the field holds the negative zero under its own text and is absent under that of
null. Compared as numbers it still does. -/
theorem text_equality_suffices_of_negativeZero :
    ∃ built built' ids ids' absent,
      let asText := (AttributeRegistry.empty.register ⟨"a", .text⟩).1
      zeroAndText.indexAttributes asText .textFallback = (built, .ok ()) ∧
      zeroAndText.indexAttributes (asText.asNumeric "a") .textFallback = (built', .ok ()) ∧
      built.evaluate (.equal "a" "-0.0") asText = .ok ids ∧ 0 ∈ ids ∧
      built'.evaluate (.equal "a" "-0.0") (asText.asNumeric "a") = .ok ids' ∧ 0 ∈ ids' ∧
      built.evaluate (.equal "a" "null") asText = .ok absent ∧ 2 ∈ absent ∧
      built'.evaluate (.equal "a" "null") (asText.asNumeric "a") = .ok absent := by
  obtain ⟨-, indexes⟩ := text_equality_suffices
  obtain ⟨built, success, finds, reclassifies⟩ :=
    indexes zeroAndText (AttributeRegistry.empty.register ⟨"a", .text⟩).1 (.register .empty _)
  obtain ⟨ids, evaluated, mem⟩ := finds "a" ⟨"a", .text⟩ 0 _ (by decide) rfl
  obtain ⟨absent, evaluatedNull, memNull⟩ := finds "a" ⟨"a", .text⟩ 2 _ (by decide) rfl
  obtain ⟨built', success', grows⟩ := reclassifies "a" (by decide)
  obtain ⟨ids', evaluated', more, -⟩ := grows _ ids evaluated
  obtain ⟨_, evaluatedNull', -, exactly⟩ := grows _ absent evaluatedNull
  obtain rfl := exactly fun literal asked => by
    obtain ⟨-, rfl⟩ := Prod.mk.inj (List.mem_singleton.mp asked)
    exact IndexKey.readNumber_null
  exact ⟨built, built', ids, ids', _, success, success', evaluated, mem, evaluated', more 0 mem,
    evaluatedNull, memNull, evaluatedNull'⟩

end RecordIndex

end RecordQuery
