import RecordQuery.Proofs.Index.OwnText

/-!
# Literals as numbers

Under a numeric attribute a literal that is read as a number counts by the number that it denotes, and not
by the way in which it is spelled. Whole numbers count by themselves, and the small ones are kept apart.
-/

namespace RecordQuery

open Decimal

namespace IndexKey

/-- Under a numeric attribute a spelling has the key of the value that is nearest to its number. -/
theorem forLiteral_of_spells {literal : String} {q : ℚ} {x : Binary64} (spells : Spells literal q)
    (nearest : nearest? q = some x) (field : String) :
    forLiteral ⟨field, .numeric⟩ literal = ofNumber x := by
  rw [forLiteral_numeric, readNumber_of_spells spells, nearest]
  rfl

/-- Two spellings of one number have the same key. -/
theorem forLiteral_eq_of_spells {s t : String} {q : ℚ} (first : Spells s q) (second : Spells t q)
    (small : |q| < 2 ^ 1024 - 2 ^ 970) (field : String) :
    forLiteral ⟨field, .numeric⟩ s = forLiteral ⟨field, .numeric⟩ t := by
  obtain ⟨x, nearest⟩ := Option.isSome_iff_exists.mp (isSome_nearest?_iff.mpr small)
  rw [forLiteral_of_spells first nearest, forLiteral_of_spells second nearest]

/-- A whole number that a record holds has the key of the value that is nearest to it, if there is
one. -/
theorem ofRecord_integer {field : String} {r : Record} {n : Int} {x : Binary64}
    (held : r.get? field = some (.number (.integer n))) (nearest : nearest? n = some x)
    (policy : MixedTypePolicy) :
    ofRecord policy ⟨field, .numeric⟩ r = .ok (ofNumber x) := by
  unfold ofRecord Attribute.extract
  simp only [held, Number.toBinary?, Binary.ofInt?_eq_nearest?, nearest]
  rfl

/-- The keys of a whole number under the numeric kind: as the value of a record, and as a literal. -/
inductive OfWhole (field : String) (n : Int) : IndexKey → Prop
  | held {policy r key} (value : r.get? field = some (.number (.integer n)))
      (filed : ofRecord policy ⟨field, .numeric⟩ r = .ok key) : OfWhole field n key
  | spelled {literal} (spells : Spells literal n) :
      OfWhole field n (forLiteral ⟨field, .numeric⟩ literal)

/-- A whole number has one key, that of the value nearest to it. -/
theorem OfWhole.eq_ofNumber {field : String} {n : Int} {key : IndexKey} {x : Binary64}
    (h : OfWhole field n key) (nearest : nearest? n = some x) : key = ofNumber x := by
  cases h with
  | held value filed => exact Except.ok.inj (filed.symm.trans (ofRecord_integer value nearest _))
  | spelled spells => exact forLiteral_of_spells spells nearest field

end IndexKey

namespace Decimal

theorem isSome_nearest?_of_fits64 {n : Int} (fits : Number.fits64 n = true) :
    (nearest? n).isSome = true := by
  rw [← Binary.ofInt?_eq_nearest?]
  exact Binary.isSome_ofInt?_of_fits64 fits

/-- The nearest value of a whole number by its sign and its pattern. -/
theorem nearest?_intCast {n : Int} {x : Binary64} (nearest : nearest? n = some x) :
    x.negative = decide (n < 0) ∧ x.magnitude = BinaryFormat.double.nearest n.natAbs 1 := by
  rw [← Binary.ofInt?_eq_nearest?, Binary.ofInt?, Binary.nearest?, Binary.ofPattern?] at nearest
  split at nearest
  · obtain rfl := Option.some.inj nearest
    exact ⟨rfl, rfl⟩
  · cases nearest

/-- Whole numbers up to the power of two with one bit more than the fraction are rounded apart. -/
theorem eq_of_unsignedZero_eq {n m : Int} {x y : Binary64} (hn : |n| ≤ 2 ^ 53) (hm : |m| ≤ 2 ^ 53)
    (nearestN : nearest? n = some x) (nearestM : nearest? m = some y)
    (same : x.unsignedZero = y.unsignedZero) : n = m := by
  obtain ⟨signX, patternX⟩ := nearest?_intCast nearestN
  obtain ⟨signY, patternY⟩ := nearest?_intCast nearestM
  have bits : 2 * twoPow BinaryFormat.double.fractionBits = 9007199254740992 := by decide
  have apart {i j : Nat} (hi : i ≤ 9007199254740992) (hj : j ≤ 9007199254740992)
      (rounded : BinaryFormat.double.nearest i 1 = BinaryFormat.double.nearest j 1) : i = j := by
    rw [← bits] at hi hj
    exact BinaryFormat.nearest_injective_of_le _ hi hj rounded
  have magnitudes : x.magnitude = y.magnitude := by
    rw [← Binary.magnitude_unsignedZero x, same, Binary.magnitude_unsignedZero]
  have boundN : n.natAbs ≤ 9007199254740992 := by
    rw [abs_le] at hn
    omega
  have boundM : m.natAbs ≤ 9007199254740992 := by
    rw [abs_le] at hm
    omega
  have sizes : n.natAbs = m.natAbs :=
    apart boundN boundM (patternX.symm.trans (magnitudes.trans patternY))
  by_cases zero : n.natAbs = 0
  · omega
  · have nonzero : x.isZero = false := by
      rw [Binary.isZero, beq_eq_false_iff_ne, patternX]
      intro vanishing
      have zeroPattern : BinaryFormat.double.nearest 0 1 = 0 := by decide +kernel
      exact zero (apart boundN (Nat.zero_le _) (vanishing.trans zeroPattern.symm))
    have nonzero' : y.isZero = false := by
      rw [← Binary.isZero_unsignedZero, ← same, Binary.isZero_unsignedZero]
      exact nonzero
    rw [Binary.unsignedZero_of_not_isZero nonzero, Binary.unsignedZero_of_not_isZero nonzero'] at same
    have signs : decide (n < 0) = decide (m < 0) := by rw [← signX, same, signY]
    rw [decide_eq_decide] at signs
    omega

end Decimal

namespace Predicate

mutual

/-- The predicate with other literals in its equality tests. -/
def mapLiterals (f : String → String → String) : Predicate → Predicate
  | equal field literal => equal field (f field literal)
  | and children => and (mapLiteralsAll f children)
  | or children => or (mapLiteralsAll f children)

/-- The predicates with other literals in their equality tests. -/
def mapLiteralsAll (f : String → String → String) : List Predicate → List Predicate
  | [] => []
  | child :: rest => mapLiterals f child :: mapLiteralsAll f rest

end

mutual

theorem leafFields_mapLiterals (f : String → String → String) :
    ∀ p : Predicate, (p.mapLiterals f).leafFields = p.leafFields
  | equal _ _ => rfl
  | and children => leafFieldsAll_mapLiteralsAll f children
  | or children => leafFieldsAll_mapLiteralsAll f children

theorem leafFieldsAll_mapLiteralsAll (f : String → String → String) :
    ∀ children, leafFieldsAll (mapLiteralsAll f children) = leafFieldsAll children
  | [] => rfl
  | child :: rest => by
      rw [mapLiteralsAll, leafFieldsAll, leafFieldsAll, leafFields_mapLiterals f child,
        leafFieldsAll_mapLiteralsAll f rest]

end

end Predicate

namespace RecordIndex

section Literals

variable (index : RecordIndex) (registry : AttributeRegistry) (f : String → String → String)

/-- Whether the tests of a literal and of the one that replaces it have the same result. -/
def SameTest (test : String × String) : Prop :=
  index.matching registry (.equal test.1 (f test.1 test.2)) =
    index.matching registry (.equal test.1 test.2)

mutual

/-- Where no test has another result, other literals do not change the result of a predicate. -/
theorem matching_mapLiterals : ∀ p : Predicate, (∀ test ∈ p.leafTests, SameTest index registry f test) →
    index.matching registry (p.mapLiterals f) = index.matching registry p
  | .equal field literal, agree => agree (field, literal) (List.mem_singleton_self _)
  | .and [], _ => rfl
  | .and (child :: rest), agree => by
      have first := matching_mapLiterals child fun test mem =>
        agree test (List.mem_append_left _ mem)
      rw [Predicate.mapLiterals, Predicate.mapLiteralsAll, matching, matching, first]
      exact (listings_mapLiterals rest _ fun test mem => agree test (List.mem_append_right _ mem)).1
  | .or children, agree => (listings_mapLiterals children [] agree).2

theorem listings_mapLiterals : ∀ (children : List Predicate) (found : List RecordId),
    (∀ test ∈ Predicate.leafTestsAll children, SameTest index registry f test) →
    index.narrow registry found (Predicate.mapLiteralsAll f children) =
        index.narrow registry found children ∧
      index.widen registry found (Predicate.mapLiteralsAll f children) =
        index.widen registry found children
  | [], found, _ => ⟨rfl, rfl⟩
  | child :: rest, found, agree => by
      have first := matching_mapLiterals child fun test mem =>
        agree test (List.mem_append_left _ mem)
      have others (found : List RecordId) := listings_mapLiterals rest found fun test mem =>
        agree test (List.mem_append_right _ mem)
      rw [Predicate.mapLiteralsAll, narrow, narrow, widen, widen, first, (others _).1, (others _).2]
      exact ⟨rfl, rfl⟩

end

/-- Whether a test of a numeric field is for the same number when its literal is replaced, or the literal
is kept. -/
def Respells (test : String × String) : Prop :=
  f test.1 test.2 = test.2 ∨ ∃ a q, registry.get? test.1 = some a ∧ a.kind = .numeric ∧
    |q| < 2 ^ 1024 - 2 ^ 970 ∧ Spells test.2 q ∧ Spells (f test.1 test.2) q

variable {index registry f}

theorem sameTest_of_respells {test : String × String} (respells : Respells registry f test) :
    SameTest index registry f test := by
  unfold SameTest
  rcases respells with kept | ⟨a, q, found, numeric, small, before, after⟩
  · rw [kept]
  · obtain ⟨field, kind⟩ := a
    obtain rfl : kind = .numeric := numeric
    rw [matching, matching, found]
    simp only [IndexKey.forLiteral_eq_of_spells after before small field]

/-- Numbers may be spelled otherwise in any query on numeric fields. -/
theorem evaluate_mapLiterals {p : Predicate}
    (respells : ∀ test ∈ p.leafTests, Respells registry f test) :
    index.evaluate (p.mapLiterals f) registry = index.evaluate p registry := by
  have fields (known : String → Bool) :
      (p.mapLiterals f).fields.find? known = p.fields.find? known := by
    rw [Predicate.find?_fields, Predicate.find?_fields, Predicate.leafFields_mapLiterals]
  unfold evaluate
  rw [fields, index.matching_mapLiterals registry f p fun test mem =>
    sameTest_of_respells (respells test mem)]

end Literals

/-- A text is read as a number exactly if it spells one below the middle between the greatest finite value
and the next power of two. Of two spellings of one number both are read, and then they have the same key
under a numeric attribute and replace each other in any query, or neither is. A whole number of 64 bits
in a record has the key of all its spellings, and no two whole numbers of magnitude at most 2^53 share a
key. -/
theorem spellings_immaterial :
    (∀ text, (readNumber text).isSome = true ↔
      ∃ q, Spells text q ∧ |q| < 2 ^ 1024 - 2 ^ 970) ∧
    (∀ s t q, Spells s q → Spells t q →
      |q| < 2 ^ 1024 - 2 ^ 970 ∧ (readNumber s).isSome = true ∧ (readNumber t).isSome = true ∧
          (∀ field, IndexKey.forLiteral ⟨field, .numeric⟩ s =
            IndexKey.forLiteral ⟨field, .numeric⟩ t) ∨
        2 ^ 1024 - 2 ^ 970 ≤ |q| ∧ readNumber s = none ∧ readNumber t = none) ∧
    (∀ (index : RecordIndex) registry f (p : Predicate),
      (∀ test ∈ p.leafTests, Respells registry f test) →
      index.evaluate (p.mapLiterals f) registry = index.evaluate p registry) ∧
    (∀ (n : Int) policy field (r : Record) literal, Number.fits64 n = true →
      r.get? field = some (.number (.integer n)) → Spells literal n →
      IndexKey.ofRecord policy ⟨field, .numeric⟩ r =
        .ok (IndexKey.forLiteral ⟨field, .numeric⟩ literal)) ∧
    (∀ (n m : Int) field key, |n| ≤ 2 ^ 53 → |m| ≤ 2 ^ 53 → IndexKey.OfWhole field n key →
      IndexKey.OfWhole field m key → n = m) := by
  refine ⟨fun text => ⟨fun read => ?_, ?_⟩, fun s t q first second => ?_,
    fun index registry f p => evaluate_mapLiterals, ?_, ?_⟩
  · obtain ⟨x, found⟩ := Option.isSome_iff_exists.mp read
    obtain ⟨q, spells⟩ := exists_spells_of_readNumber found
    exact ⟨q, spells, (isSome_readNumber_iff_of_spells spells).mp read⟩
  · rintro ⟨q, spells, small⟩
    exact (isSome_readNumber_iff_of_spells spells).mpr small
  · rcases lt_or_ge |q| (2 ^ 1024 - 2 ^ 970) with small | large
    · exact .inl ⟨small, (isSome_readNumber_iff_of_spells first).mpr small,
        (isSome_readNumber_iff_of_spells second).mpr small,
        IndexKey.forLiteral_eq_of_spells first second small⟩
    · have unread {text : String} (spells : Spells text q) : readNumber text = none := by
        rw [← Option.not_isSome_iff_eq_none, isSome_readNumber_iff_of_spells spells]
        exact not_lt.mpr large
      exact .inr ⟨large, unread first, unread second⟩
  · intro n policy field r literal fits held spells
    obtain ⟨x, nearest⟩ := Option.isSome_iff_exists.mp (isSome_nearest?_of_fits64 fits)
    rw [IndexKey.ofRecord_integer held nearest, IndexKey.forLiteral_of_spells spells nearest]
  · intro n m field key hn hm first second
    have fits (k : Int) (small : |k| ≤ 2 ^ 53) : Number.fits64 k = true := by
      rw [abs_le] at small
      simp only [Number.fits64, Bool.and_eq_true, decide_eq_true_eq]
      omega
    obtain ⟨x, nearestN⟩ := Option.isSome_iff_exists.mp (isSome_nearest?_of_fits64 (fits n hn))
    obtain ⟨y, nearestM⟩ := Option.isSome_iff_exists.mp (isSome_nearest?_of_fits64 (fits m hm))
    have same := (first.eq_ofNumber nearestN).symm.trans (second.eq_ofNumber nearestM)
    exact eq_of_unsignedZero_eq hn hm nearestN nearestM (IndexKey.number.inj same)

/-- A record with the least whole number that is not a value of 64 bits. -/
def beyondFraction : Record := Record.ofList [("a", .number (.integer 9007199254740993))]

/-- A registry with one field, compared as numbers. -/
def numericOnly : AttributeRegistry := (AttributeRegistry.empty.register ⟨"a", .numeric⟩).1

/-- One and a half may be spelled with a blank and a zero or with an exponent. Ten to the power of 400 is
too large however it is spelled. A whole number that is rounded has the key of its text, and one and minus
one are kept apart. -/
theorem spellings_immaterial_of_padded :
    (readNumber " 1.50").isSome = true ∧
    (∀ field, IndexKey.forLiteral ⟨field, .numeric⟩ " 1.50" =
      IndexKey.forLiteral ⟨field, .numeric⟩ "15e-1") ∧
    (∀ index : RecordIndex, index.evaluate (.equal "a" "15e-1") numericOnly =
      index.evaluate (.equal "a" " 1.50") numericOnly) ∧
    readNumber "1e400" = none ∧ readNumber "01E+400" = none ∧
    IndexKey.ofRecord .reject ⟨"a", .numeric⟩ beyondFraction =
      .ok (IndexKey.forLiteral ⟨"a", .numeric⟩ "9007199254740993") ∧
    IndexKey.forLiteral ⟨"a", .numeric⟩ "1" ≠ IndexKey.forLiteral ⟨"a", .numeric⟩ "-1" := by
  have spelled (text : String) (d : Decimal) (read : parse? (trimBlanks text.toList) = some d)
      (q : ℚ) (value : d.value = q) : Spells text q := value ▸ denotes_of_parse? read
  have padded : Spells " 1.50" (3 / 2) :=
    spelled _ ⟨false, 150, -2⟩ (by decide) _ (by norm_num [Decimal.value, Decimal.magnitude])
  have raised : Spells "15e-1" (3 / 2) :=
    spelled _ ⟨false, 15, -1⟩ (by decide) _ (by norm_num [Decimal.value, Decimal.magnitude])
  have large : Spells "1e400" (10 ^ 400) :=
    spelled _ ⟨false, 1, 400⟩ (by decide) _ (by norm_num [Decimal.value, Decimal.magnitude])
  have large' : Spells "01E+400" (10 ^ 400) :=
    spelled _ ⟨false, 1, 400⟩ (by decide) _ (by norm_num [Decimal.value, Decimal.magnitude])
  have rounded : Spells "9007199254740993" ((9007199254740993 : Int) : ℚ) :=
    spelled _ ⟨false, 9007199254740993, 0⟩ (by decide) _
      (by norm_num [Decimal.value, Decimal.magnitude])
  have one : Spells "1" ((1 : Int) : ℚ) :=
    spelled _ ⟨false, 1, 0⟩ (by decide) _ (by norm_num [Decimal.value, Decimal.magnitude])
  have minusOne : Spells "-1" ((-1 : Int) : ℚ) :=
    spelled _ ⟨true, 1, 0⟩ (by decide) _ (by norm_num [Decimal.value, Decimal.magnitude])
  have small : |(3 / 2 : ℚ)| < 2 ^ 1024 - 2 ^ 970 := by
    have unit : (1 : ℚ) ≤ 2 ^ 970 := one_le_pow₀ (by norm_num)
    rw [abs_of_pos (by norm_num), show (2 : ℚ) ^ 1024 = 2 ^ 54 * 2 ^ 970 from pow_add 2 54 970]
    generalize (2 : ℚ) ^ 970 = u at unit
    linarith
  have beyondAll : (2 : ℚ) ^ 1024 ≤ 10 ^ 400 :=
    calc (2 : ℚ) ^ 1024 ≤ 2 ^ 1200 := pow_le_pow_right₀ (by norm_num) (by norm_num)
      _ = (2 ^ 3) ^ 400 := pow_mul 2 3 400
      _ ≤ 10 ^ 400 := pow_le_pow_left₀ (by norm_num) (by norm_num) 400
  obtain ⟨reads, alike, replaces, held, apart⟩ := spellings_immaterial
  obtain ⟨-, -, -, same⟩ | ⟨beyond, -⟩ := alike _ _ _ padded raised
  · obtain ⟨tooSmall, -⟩ | ⟨-, unread, unread'⟩ := alike _ _ _ large large'
    · have least : (2 : ℚ) ^ 1024 - 2 ^ 970 ≤ 2 ^ 1024 := sub_le_self _ (by positivity)
      rw [abs_of_pos (by positivity)] at tooSmall
      exact absurd tooSmall (not_lt.mpr (least.trans beyondAll))
    · refine ⟨(reads _).mpr ⟨_, padded, small⟩, same, fun index => ?_, unread, unread',
        held _ _ _ _ _ (by decide) (by decide) rounded, fun equal => ?_⟩
      · apply replaces index numericOnly (fun _ _ => "15e-1") (.equal "a" " 1.50")
        exact List.forall_mem_singleton.mpr
          (.inr ⟨⟨"a", .numeric⟩, 3 / 2, by decide, rfl, small, padded, raised⟩)
      · have first : IndexKey.OfWhole "a" 1 _ := .spelled one
        rw [equal] at first
        exact absurd (apart 1 (-1) _ _ (by norm_num) (by norm_num) first (.spelled minusOne))
          (by decide)
  · exact absurd beyond (not_le.mpr small)

end RecordIndex

end RecordQuery
