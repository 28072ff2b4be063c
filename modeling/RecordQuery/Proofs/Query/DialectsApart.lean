import Mathlib.Data.List.Forall2
import RecordQuery.Proofs.Query.Dialect
import RecordQuery.Proofs.Query.Detection

/-!
# Dialects are apart

How a text opens decides which dialect can read it: a statement by its first word, a call by its name and
parenthesis, a bare predicate by a parenthesis or by a name in front of an equals sign. So no text is read
by two dialects, and the cheap tests by which a registry chooses take every text that their dialects read.
One test takes more than that: a bare predicate may begin with a name that is taken for the first word of
a statement.
-/

namespace RecordQuery

open Grammar

theorem blankRanges_apart_wordExtensionRanges :
    CodeRanges.Apart blankRanges wordExtensionRanges := by decide +kernel

/-- No blank belongs to a word. -/
theorem isWordChar_eq_false_of_isBlank {c : Char} (h : isBlank c = true) :
    isWordChar c = false := by
  rw [isWordChar, Bool.or_eq_false_iff]
  exact ⟨blankRanges_apart_alphabeticRanges16.has_eq_false h,
    blankRanges_apart_wordExtensionRanges.has_eq_false h⟩

/-- Letters are capitalised within ASCII, where a small letter stands 32 places behind its capital. -/
theorem eq_or_toNat_eq_of_toUpper {c d : Char} (h : c.toUpper = d) :
    c = d ∨ c.toNat = d.toNat + 32 := by
  delta Char.toUpper at h
  split at h
  · rename_i small
    right
    have low : 97 ≤ c.val.toNat := small.1
    have high : c.val.toNat ≤ 122 := small.2
    have shift : ('A'.val - 'a'.val).toNat = 4294967264 := rfl
    rw [← h]
    change c.val.toNat = (c.val + ('A'.val - 'a'.val)).toNat + 32
    rw [UInt32.toNat_add, shift]
    omega
  · exact .inl h

/-! ### Words in front of a sign -/

namespace Grammar

/-- Behind a word stands a blank or the sign itself. -/
theorem isBlank_or_eq_of_sign {rest : List Char} {c d : Char}
    (sign : (skipBlanks rest).head? = some c) (head : rest.head? = some d) :
    isBlank d = true ∨ d = c := by
  cases blank : isBlank d with
  | true => exact .inl rfl
  | false =>
      rw [skipBlanks_of_head? head blank] at sign
      exact .inr (Option.some.inj (head.symm.trans sign))

/-- A padded sign is the first character behind the blanks. -/
theorem head?_skipBlanks_of_padded {c : Char} {s rest : List Char} (solid : isBlank c = false)
    (h : Padded (Sign c) s () rest) : (skipBlanks s).head? = some c := by
  cases h with
  | intro before inside after =>
      rw [before.skipBlanks_eq, skipBlanks_of_sign solid inside]
      exact inside.head?_eq

/-- An expression does not consist of blanks. -/
theorem Expression.skipBlanks_ne_nil {s rest : List Char} {p : Predicate}
    (h : Expression s p rest) : skipBlanks s ≠ [] := by
  intro empty
  have nothing {n : Nat} (shorter : n < (skipBlanks s).length) : False := by
    rw [empty] at shorter
    exact Nat.not_lt_zero _ shorter
  have noGroup {t : List Char} (opening : Padded (Sign '(') s () t) : False :=
    nothing (opening.length_lt (shrinks_sign '(') (solid_sign (by decide)))
  cases h with
  | comparison name _ _ => exact nothing (name.length_lt shrinks_name solid_name)
  | grouped opening _ _ => exact noGroup opening
  | joined _ opening _ _ _ => exact noGroup opening

/-- A bare name that begins an expression is compared. -/
theorem Expression.exists_name {s rest : List Char} {p : Predicate} {c : Char}
    (h : Expression s p rest) (head : (skipBlanks s).head? = some c)
    (inside : isNameChar c = true) :
    ∃ name behind, Run isNameChar (skipBlanks s) name behind ∧
      (skipBlanks behind).head? = some '=' := by
  have noGroup {t : List Char} (opening : Padded (Sign '(') s () t) : False := by
    rw [head?_skipBlanks_of_padded (by decide) opening] at head
    rw [← Option.some.inj head] at inside
    exact absurd inside (by decide)
  have noQuote {delimiter : Char} {value : String} {t u : List Char} (before : Blanks s t)
      (solid : isBlank delimiter = false) (outside : isNameChar delimiter = false)
      (quoted : Quoted delimiter t value u) : False := by
    cases quoted
    rw [before.skipBlanks_eq, skipBlanks_of_head? rfl solid] at head
    rw [← Option.some.inj head, outside] at inside
    cases inside
  cases h with
  | grouped opening _ _ => exact (noGroup opening).elim
  | joined _ opening _ _ _ => exact (noGroup opening).elim
  | comparison name sign literal =>
      cases name with
      | intro before reading after =>
          cases reading with
          | doubleQuoted quoted =>
              exact (noQuote before (by decide) (by decide) quoted).elim
          | backticks quoted => exact (noQuote before (by decide) (by decide) quoted).elim
          | bare chars =>
              obtain ⟨d, head', inside'⟩ := chars.exists_head
              have start := before.skipBlanks_eq.trans
                (skipBlanks_of_head? head' (isBlank_eq_false_of_isNameChar inside'))
              refine ⟨_, _, start ▸ chars, ?_⟩
              rw [after.skipBlanks_eq]
              exact head?_skipBlanks_of_padded (by decide) sign

/-- A word of letters at the beginning of an expression is a name, so the sign behind it can only be the
one that compares. -/
theorem Expression.eq_sign_of_word {s word behind rest : List Char} {p : Predicate} {c : Char}
    (h : Expression s p rest) (start : skipBlanks s = word ++ behind) (nonempty : word ≠ [])
    (letters : ∀ d ∈ word, isAlphabetic d = true)
    (sign : (skipBlanks behind).head? = some c) (outside : isNameChar c = false) : c = '=' := by
  have names : ∀ d ∈ word, isNameChar d = true := fun d mem => by simp [isNameChar, letters d mem]
  have stops : ∀ d ∈ behind.head?, isNameChar d = false := by
    intro d head
    rcases isBlank_or_eq_of_sign sign head with blank | rfl
    · exact isNameChar_eq_false_of_isBlank blank
    · exact outside
  have run : Run isNameChar (skipBlanks s) word behind := start ▸ .intro nonempty names stops
  obtain ⟨d, head, inside⟩ := run.exists_head
  obtain ⟨name, behind', run', compares⟩ := h.exists_name head inside
  rw [(run_iff.mp run).2.2, ← (run_iff.mp run').2.2, compares] at sign
  exact (Option.some.inj sign).symm

end Grammar

namespace Dialect

/-! ### How texts open -/

/-- An opening is passed over where the text has a character of each set. -/
theorem stripOpening_eq_some_iff {sets : List (List Char)} {s rest : List Char} :
    stripOpening sets s = some rest ↔
      ∃ opening, List.Forall₂ (fun c set => c ∈ set) opening sets ∧ s = opening ++ rest := by
  induction sets generalizing s with
  | nil => simp [stripOpening]
  | cons set sets ih =>
      cases s with
      | nil =>
          simp only [stripOpening, reduceCtorEq, false_iff]
          rintro ⟨opening, matching, same⟩
          cases matching
          cases same
      | cons c tail =>
          rw [stripOpening]
          by_cases mem : c ∈ set
          · rw [if_pos mem, ih]
            constructor
            · rintro ⟨opening, matching, rfl⟩
              exact ⟨c :: opening, .cons mem matching, rfl⟩
            · rintro ⟨opening, matching, same⟩
              cases matching with
              | cons _ matching => exact ⟨_, matching, (List.cons.inj same).2⟩
          · rw [if_neg mem]
            simp only [reduceCtorEq, false_iff]
            rintro ⟨opening, matching, same⟩
            cases matching with
            | cons first _ =>
                rw [← (List.cons.inj same).1] at first
                exact mem first

/-- An opening of given characters. -/
theorem stripOpening_singletons_eq_some_iff {cs s rest : List Char} :
    stripOpening (cs.map fun c => [c]) s = some rest ↔ s = cs ++ rest := by
  have exact (opening : List Char) :
      List.Forall₂ (fun c set => c ∈ set) opening (cs.map fun c => [c]) ↔ opening = cs := by
    rw [List.forall₂_map_right_iff]
    simp only [List.mem_singleton, List.forall₂_eq_eq_eq]
  simp only [stripOpening_eq_some_iff, exact, exists_eq_left]

/-- A text is taken for a call exactly if it begins with a name of a call in front of a parenthesis. -/
theorem opensCall_iff {text : String} :
    opensCall text = true ↔ ∃ name ∈ callNames, ∃ rest,
      skipBlanks text.toList = name.toList ++ rest ∧ (skipBlanks rest).head? = some '(' := by
  simp only [opensCall, List.any_eq_true, Option.any_eq_true, stripOpening_singletons_eq_some_iff,
    beq_iff_eq]

/-- A word that ends in front of a sign ends there for the test of statements as well. -/
theorem atWordEnd_of_sign {rest : List Char} {c : Char} (sign : (skipBlanks rest).head? = some c)
    (outside : isWordChar c = false) : atWordEnd rest = true := by
  cases rest with
  | nil => rfl
  | cons d tail =>
      rw [atWordEnd, Bool.not_eq_true']
      rcases isBlank_or_eq_of_sign sign rfl with blank | rfl
      · exact isWordChar_eq_false_of_isBlank blank
      · exact outside

/-- The first word of a statement is passed over as its opening. -/
theorem stripOpening_of_word {s rest : List Char} (h : Word .selectWord s () rest) :
    stripOpening selectLetters s = some rest ∧
      ∃ word, s = word ++ rest ∧ word ≠ [] ∧ ∀ c ∈ word, isAlphabetic c = true := by
  have mem {c d : Char} (small : Char) (capital : c.toUpper = d)
      (place : small.toNat = d.toNat + 32) :
      c = d ∨ c = small := by
    rcases eq_or_toNat_eq_of_toUpper capital with same | behind
    · exact .inl same
    · exact .inr (Char.toNat_inj.mp (behind.trans place.symm))
  cases h with
  | @intro _ letters _ run spelled =>
      cases run with
      | intro nonempty inside behind =>
          refine ⟨stripOpening_eq_some_iff.mpr ⟨letters, ?_, rfl⟩, letters, rfl, nonempty, inside⟩
          clear nonempty inside
          change letters.map Char.toUpper = ['S', 'E', 'L', 'E', 'C', 'T'] at spelled
          simp only [List.map_eq_cons_iff, List.map_eq_nil_iff] at spelled
          obtain ⟨_, _, rfl, s, _, _, rfl, e, _, _, rfl, l, _, _, rfl, e', _, _, rfl, c, _, _,
            rfl, t, rfl⟩ := spelled
          refine .cons ?_ (.cons ?_ (.cons ?_ (.cons ?_ (.cons ?_ (.cons ?_ .nil)))))
          · rcases mem 's' s rfl with rfl | rfl <;> decide
          · rcases mem 'e' e rfl with rfl | rfl <;> decide
          · rcases mem 'l' l rfl with rfl | rfl <;> decide
          · rcases mem 'e' e' rfl with rfl | rfl <;> decide
          · rcases mem 'c' c rfl with rfl | rfl <;> decide
          · rcases mem 't' t rfl with rfl | rfl <;> decide

/-- A statement begins with its first word in front of a star. -/
theorem exists_word_of_statementText {s : List Char} {st : Statement} (h : StatementText s st) :
    ∃ word behind, skipBlanks s = word ++ behind ∧ word ≠ [] ∧
      (∀ c ∈ word, isAlphabetic c = true) ∧ (skipBlanks behind).head? = some '*' ∧
      stripOpening selectLetters (skipBlanks s) = some behind := by
  cases h with
  | intro select star _ _ _ _ =>
      cases select with
      | intro before inside after =>
          obtain ⟨c, head, letter⟩ := inside.exists_head
          have start := before.skipBlanks_eq.trans
            (skipBlanks_of_head? head (isBlank_eq_false_of_isAlphabetic letter))
          obtain ⟨strips, word, split, nonempty, letters⟩ := stripOpening_of_word inside
          refine ⟨word, _, start.trans split, nonempty, letters, ?_, start ▸ strips⟩
          rw [after.skipBlanks_eq]
          exact head?_skipBlanks_of_padded (by decide) star

/-- A call begins with its name in front of a parenthesis. -/
theorem exists_name_of_call {s rest : List Char} {p : Predicate} (h : Call s p rest) :
    ∃ name ∈ callNames, ∃ behind,
      s = name.toList ++ behind ∧ (skipBlanks behind).head? = some '(' := by
  have opens {t u : List Char} (opening : Padded (Sign '(') t () u) :
      (skipBlanks t).head? = some '(' := head?_skipBlanks_of_padded (by decide) opening
  cases h with
  | equal name opening _ _ _ _ =>
      cases name
      exact ⟨"equal", by decide, _, rfl, opens opening⟩
  | conjunction name operands =>
      cases name
      cases operands with
      | intro opening _ _ _ => exact ⟨"and", by decide, _, rfl, opens opening⟩
  | disjunction name operands =>
      cases name
      cases operands with
      | intro opening _ _ _ => exact ⟨"or", by decide, _, rfl, opens opening⟩

/-- No text is taken both for a statement and for a call. -/
theorem opensCall_eq_false_of_opensStatement {text : String} (h : opensStatement text = true) :
    opensCall text = false := by
  rw [← Bool.not_eq_true]
  intro call
  obtain ⟨name, known, rest, start, -⟩ := opensCall_iff.mp call
  obtain ⟨c, initial, more, letters⟩ := exists_initial known
  obtain ⟨behind, strips, -⟩ := (Option.any_eq_true _ _).mp h
  obtain ⟨opening, matching, start'⟩ := stripOpening_eq_some_iff.mp strips
  unfold selectLetters at matching
  cases matching with
  | @cons d _ tail _ first _ =>
      rw [start, letters] at start'
      obtain rfl := (List.cons.inj start').1
      exact not_mem_selectInitials initial first

variable {text : String}

theorem opensStatement_of_reads (h : Reads .statement text) : opensStatement text = true := by
  obtain ⟨p, parsed⟩ := h
  obtain ⟨st, read, -⟩ := parse_statement_eq_ok_iff.mp parsed
  obtain ⟨word, behind, -, -, -, sign, strips⟩ :=
    exists_word_of_statementText (Statement.parse_eq_ok_iff.mp read)
  exact (Option.any_eq_true _ _).mpr ⟨behind, strips, atWordEnd_of_sign sign (by decide)⟩

theorem opensCall_of_reads (h : Reads .call text) : opensCall text = true := by
  obtain ⟨p, parsed⟩ := h
  cases Predicate.parseCall_eq_ok_iff.mp (parse_call_eq_ok_iff.mp parsed) with
  | intro before inside after =>
      obtain ⟨c, head, letter⟩ := inside.exists_head
      obtain ⟨name, known, behind, start, sign⟩ := exists_name_of_call inside
      refine opensCall_iff.mpr ⟨name, known, behind, ?_, sign⟩
      rw [before.skipBlanks_eq, skipBlanks_of_head? head (isBlank_eq_false_of_isAlphabetic letter),
        start]

/-- A bare predicate is not taken for a call. -/
theorem opensCall_eq_false_of_reads (h : Reads .barePredicate text) : opensCall text = false := by
  obtain ⟨p, parsed⟩ := h
  have reading := Predicate.parse_eq_ok_iff.mp (parse_barePredicate_eq_ok_iff.mp parsed)
  rw [← Bool.not_eq_true]
  intro call
  obtain ⟨name, known, rest, start, sign⟩ := opensCall_iff.mp call
  have nonempty : ∀ name ∈ callNames, name.toList ≠ [] := by decide
  have alphabetic : callNames.all (fun name => name.toList.all isAlphabetic) = true := by decide
  have letters := List.all_eq_true.mp (List.all_eq_true.mp alphabetic name known)
  have same := reading.eq_sign_of_word start (nonempty name known) letters sign (by decide)
  exact absurd same (by decide)

/-- A bare predicate is no statement. -/
theorem not_reads_statement_of_reads (h : Reads .barePredicate text) : ¬ Reads .statement text := by
  rintro ⟨q, parsed'⟩
  obtain ⟨p, parsed⟩ := h
  have reading := Predicate.parse_eq_ok_iff.mp (parse_barePredicate_eq_ok_iff.mp parsed)
  obtain ⟨st, read, -⟩ := parse_statement_eq_ok_iff.mp parsed'
  obtain ⟨word, behind, start, nonempty, letters, sign, -⟩ :=
    exists_word_of_statementText (Statement.parse_eq_ok_iff.mp read)
  exact absurd (reading.eq_sign_of_word start nonempty letters sign (by decide)) (by decide)

theorem isBlankText_eq_false_of_reads (h : Reads .barePredicate text) :
    isBlankText text = false := by
  obtain ⟨p, parsed⟩ := h
  have reading := Predicate.parse_eq_ok_iff.mp (parse_barePredicate_eq_ok_iff.mp parsed)
  rw [← Bool.not_eq_true]
  intro blank
  have blanks : Blanks text.toList [] :=
    ⟨text.toList, List.all_eq_true.mp blank, (List.append_nil _).symm⟩
  exact reading.skipBlanks_ne_nil blanks.skipBlanks_eq

end Dialect

namespace DialectRegistry

open Dialect

/-- A text that is not taken for a call does not come to call notation. -/
theorem detect?_ne_call {text : String} (other : opensCall text = false) :
    standard.detect? text ≠ some .call := by
  have statement : Dialect.statement.name ≠ Dialect.call.name := by decide
  have bare : Dialect.barePredicate.name ≠ Dialect.call.name := by decide
  intro detected
  rw [detect?_standard, other, if_neg Bool.false_ne_true] at detected
  split at detected
  · exact statement (congrArg Dialect.name (Option.some.inj detected))
  · split at detected
    · cases detected
    · exact bare (congrArg Dialect.name (Option.some.inj detected))

/-- No text is read by two dialects. Every dialect takes charge of all texts that it reads. Statements and
calls come to their own dialect in the standard registry and are read there as the same predicate, and
neither statements nor bare predicates come to call notation. -/
theorem dialects_apart (text : String) :
    ([Dialect.statement, .call, .barePredicate].Pairwise fun d d' =>
      ¬ (d.Reads text ∧ d'.Reads text)) ∧
    (∀ d ∈ [Dialect.statement, .call, .barePredicate], d.Reads text → d.handles text = true) ∧
    (∀ d ∈ [Dialect.statement, .call], ∀ p, d.parse text = .ok p →
      standard.detect? text = some d ∧ standard.parse text = .ok p) ∧
    (∀ d ∈ [Dialect.statement, .barePredicate], d.Reads text →
      standard.detect? text ≠ some .call) := by
  have noCall {d : Dialect} (mem : d ∈ [Dialect.statement, .barePredicate]) (reads : d.Reads text) :
      opensCall text = false := by
    rcases List.mem_pair.mp mem with rfl | rfl
    · exact opensCall_eq_false_of_opensStatement (opensStatement_of_reads reads)
    · exact opensCall_eq_false_of_reads reads
  have noBoth {d : Dialect} (mem : d ∈ [Dialect.statement, .barePredicate]) :
      ¬ (d.Reads text ∧ Reads .call text) := by
    rintro ⟨reads, call⟩
    exact Bool.false_ne_true ((noCall mem reads).symm.trans (opensCall_of_reads call))
  refine ⟨?_, ?_, ?_, ?_⟩
  · simp only [List.pairwise_cons, List.mem_cons, List.not_mem_nil, or_false, forall_eq_or_imp,
      forall_eq, false_implies, implies_true, List.Pairwise.nil, and_true]
    refine ⟨⟨noBoth (by simp), ?_⟩, ?_⟩
    · exact fun ⟨statement, bare⟩ => not_reads_statement_of_reads bare statement
    · exact fun ⟨call, bare⟩ => noBoth (by simp) ⟨bare, call⟩
  · intro d mem reads
    simp only [List.mem_cons, List.not_mem_nil, or_false] at mem
    rcases mem with rfl | rfl | rfl
    · exact opensStatement_of_reads reads
    · exact opensCall_of_reads reads
    · change (!isBlankText text) = true
      rw [isBlankText_eq_false_of_reads reads]
      rfl
  · intro d mem p parsed
    have detected : standard.detect? text = some d := by
      rw [detect?_standard]
      rcases List.mem_pair.mp mem with rfl | rfl
      · rw [if_pos (opensStatement_of_reads ⟨p, parsed⟩)]
      · have call := opensCall_of_reads ⟨p, parsed⟩
        have noStatement : opensStatement text = false := by
          cases opens : opensStatement text with
          | false => rfl
          | true => exact call.symm.trans (opensCall_eq_false_of_opensStatement opens)
        rw [noStatement, call]
        rfl
    refine ⟨detected, ?_⟩
    rw [parse, detected]
    exact parsed
  · intro d mem reads
    exact detect?_ne_call (noCall mem reads)

/-- A statement in small letters behind a line end, a call of two calls, and a bare predicate that begins
with the name of a call. -/
theorem dialects_apart_of_three_texts :
    standard.parse "\n select*from t where\t(a='1')" = .ok (.equal "a" "1") ∧
      standard.parse "or(equal(\"a\", \"1\"), equal(\"b\", \"\"))" =
        .ok (.or [.equal "a" "1", .equal "b" ""]) ∧
      standard.detect? "and = '1'" ≠ some .call := by
  obtain ⟨-, -, detected, -⟩ := dialects_apart "\n select*from t where\t(a='1')"
  obtain ⟨-, -, detected', -⟩ := dialects_apart "or(equal(\"a\", \"1\"), equal(\"b\", \"\"))"
  obtain ⟨-, -, -, noCall⟩ := dialects_apart "and = '1'"
  refine ⟨(detected .statement (by simp) _ ?_).2, (detected' .call (by simp) _ ?_).2,
    noCall .barePredicate (by simp) ⟨.equal "and" "1", ?_⟩⟩
  · with_unfolding_all rfl
  · have written : (Predicate.or [.equal "a" "1", .equal "b" ""]).writeCall =
        "or(equal(\"a\", \"1\"), equal(\"b\", \"\"))" := by decide
    rw [← written]
    exact parse_call_eq_ok_iff.mpr (Predicate.parseCall_writeCall rfl)
  · with_unfolding_all rfl

end DialectRegistry

end RecordQuery
