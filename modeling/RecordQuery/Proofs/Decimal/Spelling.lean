import RecordQuery.Proofs.Decimal.Value
import RecordQuery.Proofs.Unicode.Classes

/-!
# Spellings of decimals

A decimal is spelled with ASCII digits, of which at least one stands beside the point, with an optional
sign, an optional point and an optional exponent. The spelling says which rational number the text stands
for, and reading finds exactly the spellings.
-/

namespace RecordQuery

namespace Decimal

/-- Whether a text consists of ASCII digits. -/
def Digits (s : List Char) : Prop := ∀ c ∈ s, isDigit c = true

/-- A sign, which may be left out. -/
inductive SignText : List Char → Bool → Prop
  | none : SignText [] false
  | plus : SignText ['+'] false
  | minus : SignText ['-'] true

/-- The digits behind a point. The point may be left out together with them, or stand alone. -/
inductive PointText : List Char → List Char → Prop
  | none : PointText [] []
  | point {digits} (all : Digits digits) : PointText ('.' :: digits) digits

/-- An exponent, which may be left out. -/
inductive ExponentText : List Char → Int → Prop
  | none : ExponentText [] 0
  | written {letter sign digits negative} (marked : letter = 'e' ∨ letter = 'E')
      (signed : SignText sign negative) (some : digits ≠ []) (all : Digits digits) :
      ExponentText (letter :: (sign ++ digits))
        (if negative then -(ofDigits digits : Int) else ofDigits digits)

/-- The texts of decimals without a sign and the rational numbers that they stand for. -/
inductive Unsigned : List Char → ℚ → Prop
  | spelled {whole point fraction power e} (digits : Digits whole)
      (pointed : PointText point fraction) (some : whole ≠ [] ∨ fraction ≠ [])
      (raised : ExponentText power e) :
      Unsigned (whole ++ (point ++ power))
        ((ofDigits whole + ofDigits fraction / 10 ^ fraction.length) * 10 ^ e)

/-- The texts of decimals and the rational numbers that they stand for. -/
inductive Denotes : List Char → ℚ → Prop
  | signed {sign negative text q} (signed : SignText sign negative) (unsigned : Unsigned text q) :
      Denotes (sign ++ text) (if negative then -q else q)

/-! ### Digits -/

/-- The ASCII digits by their code points. -/
theorem isDigit_iff {c : Char} : isDigit c = true ↔ 48 ≤ c.toNat ∧ c.toNat ≤ 57 := by
  rw [isDigit, Bool.and_eq_true, decide_eq_true_eq, decide_eq_true_eq, Char.le_def, Char.le_def,
    UInt32.le_iff_toNat_le, UInt32.le_iff_toNat_le]
  rfl

theorem foldl_digits (n : Nat) (s : List Char) :
    s.foldl (fun n c => 10 * n + (c.toNat - '0'.toNat)) n = 10 ^ s.length * n + ofDigits s := by
  unfold ofDigits
  induction s generalizing n with
  | nil => simp
  | cons c rest ih =>
      rw [List.foldl_cons, List.foldl_cons, ih, ih (10 * 0 + _), List.length_cons, pow_succ]
      ring

/-- A row of digits behind another one. -/
theorem ofDigits_append (s t : List Char) :
    ofDigits (s ++ t) = 10 ^ t.length * ofDigits s + ofDigits t := by
  rw [← foldl_digits]
  exact List.foldl_append

/-- A row of characters of one class ends where none of the class follows. -/
theorem span_append {p : Char → Bool} {row rest : List Char} (all : ∀ c ∈ row, p c = true)
    (behind : ∀ c ∈ rest.head?, p c = false) :
    (row ++ rest).takeWhile p = row ∧ (row ++ rest).dropWhile p = rest := by
  have stops : rest.takeWhile p = [] ∧ rest.dropWhile p = rest := by
    cases rest with
    | nil => simp
    | cons c tail => simp [behind c rfl]
  rw [List.takeWhile_append_of_pos all, List.dropWhile_append_of_pos all, stops.1, stops.2,
    List.append_nil]
  exact ⟨rfl, rfl⟩

theorem digits_takeWhile (s : List Char) : Digits (s.takeWhile isDigit) :=
  fun c mem => List.all_eq_true.mp List.all_takeWhile c mem

/-! ### Reading a spelling -/

/-- A sign is split off where none follows it. -/
theorem splitSign_append {sign rest : List Char} {negative : Bool} (signed : SignText sign negative)
    (behind : ∀ c ∈ rest.head?, c ≠ '+' ∧ c ≠ '-') :
    splitSign (sign ++ rest) = (negative, rest) := by
  cases signed with
  | none =>
      cases rest with
      | nil => rfl
      | cons c tail =>
          obtain ⟨noPlus, noMinus⟩ := behind c rfl
          simp [splitSign, noPlus, noMinus]
  | plus => rfl
  | minus => rfl

theorem ne_sign_of_digits {digits : List Char} (all : Digits digits) (nonempty : digits ≠ [])
    (rest : List Char) : ∀ c ∈ (digits ++ rest).head?, c ≠ '+' ∧ c ≠ '-' := by
  intro c head
  cases digits with
  | nil => exact absurd rfl nonempty
  | cons d tail =>
      obtain rfl := Option.some.inj head
      have digit := all d (List.mem_cons_self ..)
      constructor
      · rintro rfl
        exact absurd digit (by decide)
      · rintro rfl
        exact absurd digit (by decide)

theorem exponent?_of_text {power : List Char} {e : Int} (raised : ExponentText power e) :
    exponent? power = some e := by
  cases raised with
  | none => rfl
  | @written letter sign digits negative marked signed nonempty all =>
      have noSign : ∀ c ∈ digits.head?, c ≠ '+' ∧ c ≠ '-' := by
        have head := ne_sign_of_digits all nonempty []
        rwa [List.append_nil] at head
      have split := splitSign_append signed noSign
      unfold exponent?
      simp only [split]
      rw [if_pos ⟨marked, nonempty, List.all_eq_true.mpr all⟩]

theorem head?_power {power : List Char} {e : Int} (raised : ExponentText power e) :
    ∀ c ∈ power.head?, c = 'e' ∨ c = 'E' := by
  intro c head
  cases raised with
  | none => cases head
  | written marked => exact Option.some.inj head ▸ marked

theorem splitPoint_append {whole point fraction power : List Char} {e : Int}
    (digits : Digits whole) (pointed : PointText point fraction) (raised : ExponentText power e) :
    splitPoint (whole ++ (point ++ power)) = (whole, fraction, power) := by
  have noDigit : ∀ c ∈ power.head?, isDigit c = false ∧ c ≠ '.' := by
    intro c head
    rcases head?_power raised c head with rfl | rfl <;> decide
  cases pointed with
  | none =>
      obtain ⟨before, behind⟩ := span_append digits fun c head => (noDigit c head).1
      unfold splitPoint
      rw [List.nil_append, before, behind]
      cases power with
      | nil => rfl
      | cons c tail =>
          have noPoint := (noDigit c rfl).2
          simp [noPoint]
  | point all =>
      have point : ∀ c ∈ ('.' :: (fraction ++ power)).head?, isDigit c = false := by
        intro c head
        obtain rfl := Option.some.inj head
        decide
      obtain ⟨before, behind⟩ := span_append digits point
      obtain ⟨inside, rest⟩ := span_append all fun c head => (noDigit c head).1
      unfold splitPoint
      rw [List.cons_append, before, behind]
      change (whole, (fraction ++ power).takeWhile isDigit, (fraction ++ power).dropWhile isDigit) = _
      rw [inside, rest]

/-- The value of a decimal by the digits before and behind its point, its sign aside. -/
theorem magnitude_of_digits (negative : Bool) (whole fraction : List Char) (e : Int) :
    magnitude ⟨negative, ofDigits (whole ++ fraction), e - fraction.length⟩ =
      (ofDigits whole + ofDigits fraction / 10 ^ fraction.length) * 10 ^ e := by
  have parts : ((ofDigits (whole ++ fraction) : ℕ) : ℚ) =
      10 ^ fraction.length * (ofDigits whole + ofDigits fraction / 10 ^ fraction.length) := by
    rw [ofDigits_append]
    push_cast
    field_simp
  rw [magnitude, parts, zpow_sub₀ (by norm_num), zpow_natCast]
  field_simp

/-- No sign stands at the beginning of an unsigned decimal. -/
theorem Unsigned.head?_ne_sign {text : List Char} {q : ℚ} (unsigned : Unsigned text q) :
    ∀ c ∈ text.head?, c ≠ '+' ∧ c ≠ '-' := by
  cases unsigned with
  | @spelled whole point fraction power e digits pointed nonempty raised =>
      by_cases none : whole = []
      · subst none
        cases pointed with
        | none => exact absurd rfl (nonempty.resolve_left (not_not.mpr rfl))
        | point all =>
            intro c head
            obtain rfl := Option.some.inj head
            decide
      · exact ne_sign_of_digits digits none _

/-- A spelling is read as a decimal with the value that it stands for. -/
theorem parse?_of_denotes {text : List Char} {q : ℚ} (denotes : Denotes text q) :
    ∃ d, parse? text = some d ∧ d.value = q := by
  cases denotes with
  | @signed sign negative text q signed unsigned =>
      have split := splitSign_append signed unsigned.head?_ne_sign
      cases unsigned with
      | @spelled whole point fraction power e digits pointed nonempty raised =>
          refine ⟨⟨negative, ofDigits (whole ++ fraction), e - fraction.length⟩, ?_, ?_⟩
          · unfold parse?
            rw [split]
            dsimp only
            rw [splitPoint_append digits pointed raised]
            dsimp only
            rw [if_neg (by tauto), exponent?_of_text raised]
            rfl
          · rw [value, magnitude_of_digits]

/-! ### What is read is spelled -/

theorem exists_signText (s : List Char) :
    ∃ sign, SignText sign (splitSign s).1 ∧ s = sign ++ (splitSign s).2 := by
  unfold splitSign
  split
  · exact ⟨['-'], .minus, rfl⟩
  · exact ⟨['+'], .plus, rfl⟩
  · exact ⟨[], .none, rfl⟩

theorem exponentText_of_exponent? {power : List Char} {e : Int} (read : exponent? power = some e) :
    ExponentText power e := by
  unfold exponent? at read
  split at read
  · obtain rfl := Option.some.inj read
    exact .none
  · rename_i letter rest
    obtain ⟨sign, signed, split⟩ := exists_signText rest
    dsimp only at read
    split at read
    · rename_i conditions
      obtain ⟨marked, nonempty, all⟩ := conditions
      obtain rfl := Option.some.inj read
      have written := ExponentText.written marked signed nonempty (List.all_eq_true.mp all)
      rwa [← split] at written
    · cases read

theorem exists_pointText (s : List Char) :
    Digits (splitPoint s).1 ∧ ∃ point, PointText point (splitPoint s).2.1 ∧
      s = (splitPoint s).1 ++ (point ++ (splitPoint s).2.2) := by
  have parts : s = s.takeWhile isDigit ++ s.dropWhile isDigit :=
    List.takeWhile_append_dropWhile.symm
  unfold splitPoint
  dsimp only
  split
  · rename_i rest behind
    refine ⟨digits_takeWhile s, _, .point (digits_takeWhile rest), ?_⟩
    rw [List.cons_append, List.takeWhile_append_dropWhile, ← behind]
    exact parts
  · exact ⟨digits_takeWhile s, [], .none, parts⟩

/-- What is read as a decimal is a spelling of its value. -/
theorem denotes_of_parse? {text : List Char} {d : Decimal} (read : parse? text = some d) :
    Denotes text d.value := by
  obtain ⟨sign, signed, front⟩ := exists_signText text
  obtain ⟨digits, point, pointed, parts⟩ := exists_pointText (splitSign text).2
  unfold parse? at read
  dsimp only at read
  split at read
  · cases read
  · rename_i nonempty
    obtain ⟨e, raised, rfl⟩ := Option.map_eq_some_iff.mp read
    have unsigned := Unsigned.spelled digits pointed (by tauto) (exponentText_of_exponent? raised)
    rw [← parts, ← magnitude_of_digits (splitSign text).1] at unsigned
    have spelled := Denotes.signed signed unsigned
    rwa [← front] at spelled

/-! ### Blanks around a spelling -/

/-- The characters of which decimals are spelled. -/
def isNumeral (c : Char) : Bool := isDigit c || "+-.eE".toList.contains c

theorem SignText.numerals {sign : List Char} {negative : Bool} (signed : SignText sign negative) :
    ∀ c ∈ sign, isNumeral c = true := by
  cases signed with
  | none => simp
  | plus => exact List.forall_mem_singleton.mpr (by decide)
  | minus => exact List.forall_mem_singleton.mpr (by decide)

theorem Digits.numerals {digits : List Char} (all : Digits digits) :
    ∀ c ∈ digits, isNumeral c = true := by
  intro c mem
  rw [isNumeral, all c mem, Bool.true_or]

theorem PointText.numerals {point fraction : List Char} (pointed : PointText point fraction) :
    ∀ c ∈ point, isNumeral c = true := by
  cases pointed with
  | none => simp
  | point all => exact List.forall_mem_cons.mpr ⟨by decide, all.numerals⟩

theorem ExponentText.numerals {power : List Char} {e : Int} (raised : ExponentText power e) :
    ∀ c ∈ power, isNumeral c = true := by
  cases raised with
  | none => simp
  | written marked signed _ all =>
      refine List.forall_mem_cons.mpr ⟨?_, ?_⟩
      · rcases marked with rfl | rfl <;> decide
      · exact List.forall_mem_append.mpr ⟨signed.numerals, all.numerals⟩

/-- A spelling holds no other characters. -/
theorem Denotes.numerals {text : List Char} {q : ℚ} (denotes : Denotes text q) :
    ∀ c ∈ text, isNumeral c = true := by
  cases denotes with
  | signed signed unsigned =>
      cases unsigned with
      | spelled digits pointed _ raised =>
          simp only [List.forall_mem_append]
          exact ⟨signed.numerals, digits.numerals, pointed.numerals, raised.numerals⟩

theorem isBlank_of_isNumeral {c : Char} (numeral : isNumeral c = true) : isBlank c = false := by
  rw [isNumeral, Bool.or_eq_true, List.contains_iff_mem] at numeral
  rcases numeral with digit | other
  · rw [isDigit_iff] at digit
    have range : CodeRanges.has [(48, 57)] c.toNat = true := by
      change (if c.toNat < 48 then false else if c.toNat ≤ 57 then true else false) = true
      rw [if_neg (Nat.not_lt.mpr digit.1), if_pos digit.2]
    have apart : CodeRanges.Apart [(48, 57)] blankRanges := by decide
    exact apart.has_eq_false range
  · have cases : c = '+' ∨ c = '-' ∨ c = '.' ∨ c = 'e' ∨ c = 'E' := by simpa using other
    rcases cases with rfl | rfl | rfl | rfl | rfl <;> decide

/-- Where no blank stands inside, trimming removes the blanks in front and behind. -/
theorem trimBlanks_padded {front s back : List Char} (before : ∀ c ∈ front, isBlank c = true)
    (inside : ∀ c ∈ s, isBlank c = false) (behind : ∀ c ∈ back, isBlank c = true) :
    trimBlanks (front ++ s ++ back) = s := by
  have untouched (t : List Char) (noBlank : ∀ c ∈ t, isBlank c = false) : skipBlanks t = t := by
    cases t with
    | nil => rfl
    | cons c rest => exact List.dropWhile_cons_of_neg (by simp [noBlank c])
  have blanks (t u : List Char) (all : ∀ c ∈ t, isBlank c = true) :
      skipBlanks (t ++ u) = skipBlanks u := List.dropWhile_append_of_pos all
  have reversed : ∀ c ∈ s.reverse, isBlank c = false := fun c mem =>
    inside c (List.mem_reverse.mp mem)
  rw [trimBlanks, List.append_assoc, blanks front _ before]
  cases s with
  | nil =>
      rw [List.nil_append, ← List.append_nil back, blanks back [] behind]
      rfl
  | cons c rest =>
      have first : skipBlanks (c :: rest ++ back) = c :: rest ++ back :=
        List.dropWhile_cons_of_neg (by simp [inside c])
      rw [first, List.reverse_append, blanks back.reverse _ fun c mem =>
        behind c (List.mem_reverse.mp mem), untouched _ reversed, List.reverse_reverse]

/-- Whether a text is a spelling of a rational number, blanks at either end aside. -/
def Spells (text : String) (q : ℚ) : Prop := Denotes (trimBlanks text.toList) q

/-- A spelling remains one with blanks at either end. -/
theorem Denotes.spells_padded {front text back : List Char} {q : ℚ} (denotes : Denotes text q)
    (before : ∀ c ∈ front, isBlank c = true) (behind : ∀ c ∈ back, isBlank c = true) :
    Spells (String.ofList (front ++ text ++ back)) q := by
  have inside : ∀ c ∈ text, isBlank c = false := fun c mem =>
    isBlank_of_isNumeral (denotes.numerals c mem)
  rw [Spells, String.toList_ofList, trimBlanks_padded before inside behind]
  exact denotes

theorem Denotes.spells {text : List Char} {q : ℚ} (denotes : Denotes text q) :
    Spells (String.ofList text) q := by
  have bare : Spells (String.ofList ([] ++ text ++ [])) q :=
    denotes.spells_padded (by simp) (by simp)
  rwa [List.append_nil] at bare

/-- The value of 64 bits that is nearest to a rational number, unless that is too large. -/
def nearest? (q : ℚ) : Option Binary64 :=
  Binary.ofPattern? .double (decide (q < 0)) (BinaryFormat.double.nearestTo q)

/-- The sign counts for positive magnitudes only. -/
theorem map_unsignedZero_ofPattern? {negative negative' : Bool} {pattern : Nat}
    (agree : pattern = 0 ∨ negative = negative') :
    (Binary.ofPattern? .double negative pattern).map Binary.unsignedZero =
      (Binary.ofPattern? .double negative' pattern).map Binary.unsignedZero := by
  rcases agree with rfl | rfl
  · rfl
  · rfl

/-- Up to the sign of a zero, the sign of a decimal is that of its value. -/
theorem map_unsignedZero_nearest? (d : Decimal) :
    (Binary.ofPattern? .double d.negative (BinaryFormat.double.nearestTo d.value)).map
        Binary.unsignedZero =
      (nearest? d.value).map Binary.unsignedZero := by
  apply map_unsignedZero_ofPattern?
  by_cases zero : d.value = 0
  · left
    rw [zero, BinaryFormat.nearestTo_zero]
  · right
    have size := d.magnitude_nonneg
    rw [eq_comm, value]
    rw [value] at zero
    split at zero
    · rename_i negative
      rw [if_pos negative, negative]
      exact decide_eq_true (lt_of_le_of_ne (neg_nonpos.mpr size) zero)
    · rename_i positive
      rw [if_neg positive, Bool.eq_false_iff.mpr positive]
      exact decide_eq_false (not_lt.mpr size)

/-- Up to the sign of a zero, a spelling is read as the value nearest to its number. -/
theorem readNumber_of_spells {text : String} {q : ℚ} (spells : Spells text q) :
    (readNumber text).map Binary.unsignedZero = (nearest? q).map Binary.unsignedZero := by
  obtain ⟨d, read, rfl⟩ := parse?_of_denotes spells
  rw [readNumber, read, Option.bind_some, toBinary?_double, map_unsignedZero_nearest?]

/-- The nearest value exists below the middle between the greatest finite value and the next power of
two. -/
theorem isSome_nearest?_iff {q : ℚ} :
    (nearest? q).isSome = true ↔ |q| < 2 ^ 1024 - 2 ^ 970 := by
  rw [← not_le, ← BinaryFormat.infinity_le_nearestTo_double_iff, not_le, nearest?,
    Binary.ofPattern?]
  split
  · rename_i finite
    exact iff_of_true rfl finite
  · rename_i beyond
    exact iff_of_false Bool.false_ne_true beyond

/-- A spelling is read as a number unless its own is too large. -/
theorem isSome_readNumber_iff_of_spells {text : String} {q : ℚ} (spells : Spells text q) :
    (readNumber text).isSome = true ↔ |q| < 2 ^ 1024 - 2 ^ 970 := by
  rw [← isSome_nearest?_iff, ← Option.isSome_map (f := Binary.unsignedZero),
    readNumber_of_spells spells, Option.isSome_map]

/-- What is read as a number is spelled. -/
theorem exists_spells_of_readNumber {text : String} {x : Binary64}
    (read : readNumber text = some x) : ∃ q, Spells text q := by
  obtain ⟨d, parsed, -⟩ := Option.bind_eq_some_iff.mp read
  exact ⟨d.value, denotes_of_parse? parsed⟩

end Decimal

/-- The value of a whole number is the nearest one. -/
theorem Binary.ofInt?_eq_nearest? (n : Int) : Binary.ofInt? .double n = Decimal.nearest? n := by
  have sign : decide (n < 0) = decide ((n : ℚ) < 0) := decide_eq_decide.mpr Int.cast_lt_zero.symm
  rw [Binary.ofInt?, Binary.nearest?, Decimal.nearest?, BinaryFormat.nearestTo, Rat.num_intCast,
    Rat.den_intCast, sign]

end RecordQuery
