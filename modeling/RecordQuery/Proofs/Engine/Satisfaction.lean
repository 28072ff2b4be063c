import RecordQuery.Proofs.Attribute.Registrations
import RecordQuery.Proofs.Decimal.Layout
import RecordQuery.Proofs.Index.RecordIndex

/-!
# What it means to satisfy a predicate

Equality of records, and the truth of a predicate for a record, are said here by the texts and the
rational numbers of the values alone. Both agree with what is computed from values and literals.
-/

namespace RecordQuery

/-! ### Finite numbers -/

/-- Whether a text is a decimal with blanks around it, and is not too large for a value of 64 bits. -/
def SpellsFinite (text : String) (q : ℚ) : Prop :=
  (∃ front decimal back, text.toList = front ++ decimal ++ back ∧
    (∀ c ∈ front, isBlank c = true) ∧ (∀ c ∈ back, isBlank c = true) ∧
    Decimal.Denotes decimal q) ∧
  |q| < 2 ^ 1024 - 2 ^ 970

/-- Whether two rational numbers are one value of 64 bits, the zeros of both signs being one. -/
def SameBinary (q r : ℚ) : Prop :=
  ∃ pattern, Binary64.Rounds q pattern ∧ Binary64.Rounds r pattern ∧
    (pattern = 0 ∨ (q < 0 ↔ r < 0))

section Numbers

open Decimal

variable {text : String} {q r : ℚ}

theorem exists_trimBlanks (s : List Char) :
    ∃ front back, s = front ++ trimBlanks s ++ back ∧ (∀ c ∈ front, isBlank c = true) ∧
      ∀ c ∈ back, isBlank c = true := by
  have split (t : List Char) : t.takeWhile isBlank ++ skipBlanks t = t :=
    List.takeWhile_append_dropWhile
  have blanks (t : List Char) : ∀ c ∈ t.takeWhile isBlank, isBlank c = true :=
    List.all_eq_true.mp List.all_takeWhile
  refine ⟨s.takeWhile isBlank, ((skipBlanks s).reverse.takeWhile isBlank).reverse, ?_, blanks s,
    fun c mem => blanks _ c (List.mem_reverse.mp mem)⟩
  rw [trimBlanks, List.append_assoc, ← List.reverse_append, split, List.reverse_reverse, split]

/-- Blanks around a decimal are trimmed before it is read. -/
theorem spellsFinite_iff :
    SpellsFinite text q ↔ Spells text q ∧ |q| < 2 ^ 1024 - 2 ^ 970 := by
  refine and_congr_left fun _ => ⟨?_, fun spells => ?_⟩
  · rintro ⟨front, decimal, back, split, before, behind, denotes⟩
    have padded := denotes.spells_padded before behind
    rwa [← split, String.ofList_toList] at padded
  · obtain ⟨front, back, split, before, behind⟩ := exists_trimBlanks text.toList
    exact ⟨front, _, back, split, before, behind, spells⟩

theorem exists_readNumber (spells : SpellsFinite text q) :
    ∃ x, readNumber text = some x ∧
      (some x).map Binary.unsignedZero = (nearest? q).map Binary.unsignedZero := by
  obtain ⟨spelled, bound⟩ := spellsFinite_iff.mp spells
  obtain ⟨x, read⟩ :=
    Option.isSome_iff_exists.mp ((isSome_readNumber_iff_of_spells spelled).mpr bound)
  exact ⟨x, read, by rw [← read, readNumber_of_spells spelled]⟩

theorem exists_spellsFinite {x : Binary64} (read : readNumber text = some x) :
    ∃ q, SpellsFinite text q := by
  obtain ⟨q, spells⟩ := exists_spells_of_readNumber read
  have bound := (isSome_readNumber_iff_of_spells spells).mp (Option.isSome_of_eq_some read)
  exact ⟨q, spellsFinite_iff.mpr ⟨spells, bound⟩⟩

/-- A text that spells no finite number is not read as one. -/
theorem readNumber_eq_none_iff : readNumber text = none ↔ ∀ q, ¬ SpellsFinite text q := by
  constructor
  · intro none q spells
    obtain ⟨x, read, -⟩ := exists_readNumber spells
    cases none.symm.trans read
  · intro never
    cases read : readNumber text with
    | none => rfl
    | some x =>
        obtain ⟨q, spells⟩ := exists_spellsFinite read
        exact absurd spells (never q)

/-- Up to the sign of a zero, finite values agree where their patterns and the signs of their magnitudes
do. -/
theorem map_unsignedZero_ofPattern?_eq_iff {negative negative' : Bool} {pattern pattern' : ℕ}
    (finite : pattern' < BinaryFormat.double.infinity) :
    (Binary.ofPattern? .double negative pattern).map Binary.unsignedZero =
        (Binary.ofPattern? .double negative' pattern').map Binary.unsignedZero ↔
      pattern = pattern' ∧ (pattern = 0 ∨ negative = negative') := by
  constructor
  · intro same
    rw [Binary.ofPattern?, Binary.ofPattern?, dif_pos finite] at same
    split at same
    · exact Binary.unsignedZero_eq_iff.mp (Option.some.inj same)
    · cases same
  · rintro ⟨rfl, agree⟩
    exact map_unsignedZero_ofPattern? agree

/-- Two numbers are one value if they have the same nearest value, up to the sign of a zero. -/
theorem sameBinary_iff (finite : |r| < 2 ^ 1024 - 2 ^ 970) :
    SameBinary q r ↔
      (nearest? q).map Binary.unsignedZero = (nearest? r).map Binary.unsignedZero := by
  have bound : BinaryFormat.double.nearestTo r < BinaryFormat.double.infinity := by
    rwa [← not_le, BinaryFormat.infinity_le_nearestTo_double_iff, not_le]
  rw [nearest?, nearest?, map_unsignedZero_ofPattern?_eq_iff bound, decide_eq_decide]
  simp only [SameBinary, Binary64.rounds_iff]
  constructor
  · rintro ⟨pattern, rfl, same, signs⟩
    exact ⟨same.symm, signs⟩
  · rintro ⟨same, signs⟩
    exact ⟨_, rfl, same.symm, signs⟩

/-- A value is the nearest one to its own rational number. -/
theorem nearest?_value (x : Binary64) :
    (nearest? (Binary64.value x)).map Binary.unsignedZero = some x.unsignedZero := by
  have own : Binary.ofPattern? .double x.negative x.magnitude = some x := dif_pos x.finite
  have image : (Binary.ofPattern? .double x.negative x.magnitude).map Binary.unsignedZero =
      some x.unsignedZero := by rw [own, Option.map_some]
  rw [← image, nearest?, Binary64.rounds_iff.mp (Binary64.rounds_value x)]
  apply map_unsignedZero_ofPattern?
  by_cases zero : x.magnitude = 0
  · exact .inl zero
  · right
    rw [Bool.eq_iff_iff, decide_eq_true_iff, Binary64.value_neg_iff zero]

end Numbers

/-! ### Values -/

namespace FieldValue

/-- The text of a value. -/
inductive Stringified : FieldValue → String → Prop
  | null : Stringified .null "null"
  | text (s : String) : Stringified (.text s) s
  | integer (n : Int) : Stringified (.number (.integer n)) (toString n)
  | float {x : Binary64} {s : String} (written : Binary64.WrittenAs x s) :
      Stringified (.number (.float x)) s

/-- The rational number that a value holds: a number of its own, or one that its text spells. -/
inductive Holds : FieldValue → ℚ → Prop
  | integer (n : Int) : Holds (.number (.integer n)) n
  | float (x : Binary64) : Holds (.number (.float x)) (Binary64.value x)
  | text {s : String} {q : ℚ} (spells : SpellsFinite s q) : Holds (.text s) q

/-- Whether a value meets a literal. In a numeric field a value that holds a number meets the literals
that spell the same value of 64 bits. In all other cases the literal is the text of the value. -/
inductive Meets (numeric : Prop) (value : FieldValue) (literal : String) : Prop
  | number {q r : ℚ} (kind : numeric) (own : value.Holds q) (other : SpellsFinite literal r)
      (same : SameBinary q r) : Meets numeric value literal
  | text (plain : numeric → ∀ q, ¬ value.Holds q) (written : value.Stringified literal) :
      Meets numeric value literal

/-- Whether two values are equal: whole numbers as such, binary values as rational numbers. -/
inductive Alike : FieldValue → FieldValue → Prop
  | null : Alike .null .null
  | text (s : String) : Alike (.text s) (.text s)
  | integer (n : Int) : Alike (.number (.integer n)) (.number (.integer n))
  | float {x y : Binary64} (same : Binary64.value x = Binary64.value y) :
      Alike (.number (.float x)) (.number (.float y))

variable {v w : FieldValue} {literal : String}

/-- A value has one text, the one that is computed. -/
theorem stringified_iff {s : String} : v.Stringified s ↔ v.toText = s := by
  constructor
  · intro stringified
    cases stringified with
    | null => rfl
    | text => rfl
    | integer => rfl
    | float written => exact (Binary64.writtenAs_iff.mp written).symm
  · rintro rfl
    match v with
    | .null => exact .null
    | .text s => exact .text s
    | .number (.integer n) => exact .integer n
    | .number (.float x) => exact .float (Binary64.writtenAs_iff.mpr rfl)

/-- The values that are read of a number and of a literal agree where the numbers are one value. -/
theorem any_sameNumber_iff {own : Option Binary64} {y : Binary64} {q r : ℚ}
    (ownNearest : own.map Binary.unsignedZero = (Decimal.nearest? q).map Binary.unsignedZero)
    (otherNearest : (some y).map Binary.unsignedZero = (Decimal.nearest? r).map Binary.unsignedZero)
    (finite : |r| < 2 ^ 1024 - 2 ^ 970) :
    (own.any fun x => x.sameNumber y) = true ↔ SameBinary q r := by
  rw [sameBinary_iff finite, ← ownNearest, ← otherNearest]
  cases own with
  | none => simp
  | some x => simp [Binary.sameNumber_iff]

theorem map_unsignedZero_toBinary? {n : Number} {q : ℚ} (own : (number n).Holds q) :
    n.toBinary?.map Binary.unsignedZero = (Decimal.nearest? q).map Binary.unsignedZero := by
  cases own with
  | integer n => rw [Number.toBinary?, Binary.ofInt?_eq_nearest?]
  | float x => exact (nearest?_value x).symm

theorem exists_holds (n : Number) : ∃ q, (number n).Holds q := by
  cases n with
  | integer n => exact ⟨n, .integer n⟩
  | float x => exact ⟨_, .float x⟩

/-- A value that holds a number meets the literals that are read as the same value. -/
theorem meets_iff_of_holds (own : Option Binary64) (holds : ∃ q, v.Holds q)
    (nearest : ∀ q, v.Holds q →
      own.map Binary.unsignedZero = (Decimal.nearest? q).map Binary.unsignedZero) :
    v.Meets True literal ↔
      ((Decimal.readNumber literal).any fun y => own.any fun x => x.sameNumber y) = true := by
  constructor
  · intro met
    cases met with
    | @number q r _ value other same =>
        obtain ⟨y, read, near⟩ := exists_readNumber other
        rw [read, Option.any_some, any_sameNumber_iff (nearest q value) near other.2]
        exact same
    | text plain =>
        obtain ⟨q, value⟩ := holds
        exact absurd value (plain trivial q)
  · intro met
    obtain ⟨q, value⟩ := holds
    obtain ⟨y, read, -⟩ := (Option.any_eq_true _ _).mp met
    obtain ⟨r, other⟩ := exists_spellsFinite read
    obtain ⟨y', read', near⟩ := exists_readNumber other
    rw [read', Option.any_some, any_sameNumber_iff (nearest q value) near other.2] at met
    exact .number trivial value other met

/-- A value that holds no number meets the literal that is its text. -/
theorem meets_iff_of_plain {numeric : Prop} (plain : numeric → ∀ q, ¬ v.Holds q) :
    v.Meets numeric literal ↔ (v.toText == literal) = true := by
  rw [beq_iff_eq, ← stringified_iff]
  constructor
  · intro met
    cases met with
    | number kind value => exact absurd value (plain kind _)
    | text _ written => exact written
  · exact .text plain

/-- What a value meets is computed from its text and its number. -/
theorem meets_iff {kind : AttributeKind} :
    v.Meets (kind = .numeric) literal ↔ v.meets kind literal = true := by
  cases kind with
  | text => exact meets_iff_of_plain nofun
  | numeric =>
      rw [eq_self_iff_true]
      match v with
      | .null => exact meets_iff_of_plain nofun
      | .number n =>
          exact meets_iff_of_holds n.toBinary? (exists_holds n) fun _ => map_unsignedZero_toBinary?
      | .text s =>
          rw [meets]
          cases read : Decimal.readNumber s with
          | none =>
              have never := readNumber_eq_none_iff.mp read
              apply meets_iff_of_plain
              intro _ q holds
              cases holds with
              | text spells => exact never q spells
          | some x =>
              obtain ⟨q, spells⟩ := exists_spellsFinite read
              refine meets_iff_of_holds (some x) ⟨q, .text spells⟩ fun r holds => ?_
              cases holds with
              | text spells =>
                  obtain ⟨x', read', near⟩ := exists_readNumber spells
                  obtain rfl := Option.some.inj (read.symm.trans read')
                  exact near

/-- Equal values are those that are found equal. -/
theorem alike_iff : v.Alike w ↔ v.same w = true := by
  constructor
  · intro alike
    cases alike with
    | null => rfl
    | text s => exact same_iff.mpr rfl
    | integer n => exact same_iff.mpr rfl
    | float same => exact Binary.sameNumber_iff.mpr (Binary64.value_eq_iff.mp same)
  · intro same
    rcases eq_or_floats_of_same same with rfl | ⟨x, y, rfl, rfl, equal⟩
    · match v with
      | .null => exact .null
      | .text s => exact .text s
      | .number (.integer n) => exact .integer n
      | .number (.float x) => exact .float rfl
    · exact .float (Binary64.value_eq_iff.mpr (Binary.sameNumber_iff.mp equal))

end FieldValue

/-! ### Records -/

namespace Record

/-- Whether two records carry the same fields, with equal values. -/
def Alike (r s : Record) : Prop := ∀ field, Option.Rel FieldValue.Alike (r.get? field) (s.get? field)

/-- Whether a record satisfies a predicate, where the given fields are numeric. A field that the record
does not carry counts as null. -/
inductive Satisfies (numeric : String → Prop) (r : Record) : Predicate → Prop
  | equal {field literal : String}
      (meets : ((r.get? field).getD .null).Meets (numeric field) literal) :
      Satisfies numeric r (.equal field literal)
  | and {children : List Predicate} (all : ∀ child ∈ children, Satisfies numeric r child) :
      Satisfies numeric r (.and children)
  | or {children : List Predicate} {child : Predicate} (mem : child ∈ children)
      (holds : Satisfies numeric r child) : Satisfies numeric r (.or children)

variable {r s : Record} {records : List Record}

/-- Equal records are those that are found equal. -/
theorem alike_iff : r.Alike s ↔ r.same s = true := by
  rw [same_iff_get?]
  refine forall_congr' fun field => ?_
  cases r.get? field with
  | none =>
      cases s.get? field with
      | none => exact iff_of_true .none rfl
      | some w => exact iff_of_false nofun nofun
  | some v =>
      cases s.get? field with
      | none => exact iff_of_false nofun nofun
      | some w =>
          rw [Option.map_some, Option.map_some, Option.some_inj, ← FieldValue.same_iff,
            ← FieldValue.alike_iff]
          exact ⟨fun | .some alike => alike, .some⟩

/-- A record satisfies the predicates that are found true for it. -/
theorem satisfies_iff (p : Predicate) :
    r.Satisfies (LastHoldsNumber records) p ↔ r.satisfies (kindIn records) p = true := by
  cases p with
  | equal field literal =>
      have leaf : (r.valueOf field).Meets (kindIn records field = .numeric) literal ↔
          (r.valueOf field).meets (kindIn records field) literal = true := FieldValue.meets_iff
      rw [kindIn_eq_numeric_iff] at leaf
      rw [satisfies, Predicate.holds, ← leaf]
      constructor
      · intro holds
        cases holds with
        | equal meets => exact meets
      · exact .equal
  | and children =>
      rw [satisfies, Predicate.holds_and_iff]
      constructor
      · intro holds child mem
        cases holds with
        | and all => exact (satisfies_iff child).mp (all child mem)
      · intro all
        exact .and fun child mem => (satisfies_iff child).mpr (all child mem)
  | or children =>
      rw [satisfies, Predicate.holds_or_iff]
      constructor
      · intro holds
        cases holds with
        | or mem holds => exact ⟨_, mem, (satisfies_iff _).mp holds⟩
      · rintro ⟨child, mem, holds⟩
        exact .or mem ((satisfies_iff child).mpr holds)

instance (records : List Record) (r : Record) (p : Predicate) :
    Decidable (r.Satisfies (LastHoldsNumber records) p) :=
  decidable_of_iff _ (satisfies_iff p).symm

end Record

end RecordQuery
