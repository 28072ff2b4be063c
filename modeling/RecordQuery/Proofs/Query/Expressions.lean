import RecordQuery.Query.Statement
import RecordQuery.Proofs.Query.Tokens

/-!
# Expressions of the statement dialect

The grammar of expressions and statements, and the proof that the parsers find exactly its readings. A
parser never goes back behind a token, yet the grammar prefers no reading to another, so the proof
has two halves: what is found is a reading, by the size of the text, and every reading is found up to
the blanks behind it, unless a quote follows that would change its last literal.
-/

namespace RecordQuery

namespace Grammar

/-- The connectives by which expressions are joined. -/
inductive Connective where
  | and
  | or

namespace Connective

/-- The keyword of a connective. -/
def keyword : Connective → Keyword
  | and => .andWord
  | or => .orWord

/-- The tree of the operands that a connective joins. -/
def join : Connective → List Predicate → Predicate
  | and => .and
  | or => .or

end Connective

mutual

/-- Expressions: a field compared with a literal, or in parentheses one expression or several that
are joined by one and the same connective. -/
inductive Expression : Reading Predicate
  | comparison {s s₁ s₂ rest field value} (name : Padded Name s field s₁)
      (sign : Padded (Sign '=') s₁ () s₂) (literal : Padded Literal s₂ value rest) :
      Expression s (.equal field value) rest
  | grouped {s s₁ s₂ rest p} (opening : Padded (Sign '(') s () s₁)
      (inside : Expression s₁ p s₂) (closing : Padded (Sign ')') s₂ () rest) :
      Expression s p rest
  | joined (c : Connective) {s s₁ s₂ s₃ rest p ps} (opening : Padded (Sign '(') s () s₁)
      (first : Expression s₁ p s₂) (others : FurtherOperands c s₂ ps s₃)
      (closing : Padded (Sign ')') s₃ () rest) : Expression s (c.join (p :: ps)) rest

/-- One or more expressions, each behind the same connective. -/
inductive FurtherOperands : Connective → Reading (List Predicate)
  | one {c s s₁ rest p} (word : Padded (Word c.keyword) s () s₁) (last : Expression s₁ p rest) :
      FurtherOperands c s [p] rest
  | more {c s s₁ s₂ rest p ps} (word : Padded (Word c.keyword) s () s₁)
      (next : Expression s₁ p s₂) (others : FurtherOperands c s₂ ps rest) :
      FurtherOperands c s (p :: ps) rest

end

/-- Texts of statements. -/
inductive StatementText : List Char → Statement → Prop
  | intro {s s₁ s₂ s₃ s₄ s₅ collection p} (select : Padded (Word .selectWord) s () s₁)
      (star : Padded (Sign '*') s₁ () s₂) (word : Padded (Word .fromWord) s₂ () s₃)
      (name : Padded Name s₃ collection s₄) (condition : Padded (Word .whereWord) s₄ () s₅)
      (expression : Expression s₅ p []) : StatementText s ⟨collection, p⟩

/-! ### Readings of expressions -/

theorem shrinks_quoted (delimiter : Char) : Shrinks (Quoted delimiter) := by
  intro s value rest h
  cases h with
  | intro body =>
      simp only [List.length_cons, List.length_append]
      omega

theorem solid_quoted {delimiter : Char} (h : isBlank delimiter = false) :
    Solid (Quoted delimiter) := by
  intro s value rest reading
  cases reading with
  | intro body => exact ⟨delimiter, rfl, h⟩

theorem shrinks_name : Shrinks Name := by
  intro s name rest h
  cases h with
  | bare chars => exact chars.length_lt
  | doubleQuoted quoted => exact shrinks_quoted _ _ _ _ quoted
  | backticks quoted => exact shrinks_quoted _ _ _ _ quoted

theorem solid_name : Solid Name := by
  intro s name rest h
  cases h with
  | bare chars =>
      obtain ⟨c, head, inside⟩ := chars.exists_head
      exact ⟨c, head, isBlank_eq_false_of_isNameChar inside⟩
  | doubleQuoted quoted => exact solid_quoted (by decide) _ _ _ quoted
  | backticks quoted => exact solid_quoted (by decide) _ _ _ quoted

mutual

theorem Expression.length_lt {s rest : List Char} {p : Predicate} :
    Expression s p rest → rest.length < s.length
  | .comparison name sign literal => by
      have := shrinks_name.padded _ _ _ name
      have := (shrinks_sign '=').padded _ _ _ sign
      have := (shrinks_quoted '\x27').padded _ _ _ literal
      omega
  | .grouped opening inside closing => by
      have := (shrinks_sign '(').padded _ _ _ opening
      have := inside.length_lt
      have := (shrinks_sign ')').padded _ _ _ closing
      omega
  | .joined _ opening first others closing => by
      have := (shrinks_sign '(').padded _ _ _ opening
      have := first.length_lt
      have := others.length_lt
      have := (shrinks_sign ')').padded _ _ _ closing
      omega

theorem FurtherOperands.length_lt {c : Connective} {s rest : List Char} {ps : List Predicate} :
    FurtherOperands c s ps rest → rest.length < s.length
  | .one word last => by
      have := shrinks_word.padded _ _ _ word
      have := last.length_lt
      omega
  | .more word next others => by
      have := shrinks_word.padded _ _ _ word
      have := next.length_lt
      have := others.length_lt
      omega

end

theorem shrinks_expression : Shrinks Expression := fun _ _ _ h => h.length_lt

theorem FurtherOperands.chain {c : Connective} {s rest : List Char} {ps : List Predicate} :
    FurtherOperands c s ps rest → Chain (Padded (Word c.keyword)) Expression s ps rest
  | .one word last => .one word last
  | .more word next others => .more word next others.chain

/-- Further operands are a chain of expressions that are linked by the keyword. -/
theorem furtherOperands_iff_chain {c : Connective} {s rest : List Char} {ps : List Predicate} :
    FurtherOperands c s ps rest ↔ Chain (Padded (Word c.keyword)) Expression s ps rest := by
  refine ⟨FurtherOperands.chain, fun chain => ?_⟩
  induction chain with
  | one word last => exact .one word last
  | more word next others ih => exact .more word next ih

/-- An expression takes in blanks in front of it. -/
theorem Expression.after_blanks {s t rest : List Char} {p : Predicate} (blanks : Blanks s t)
    (h : Expression t p rest) : Expression s p rest := by
  cases h with
  | comparison name sign literal => exact .comparison (name.after_blanks blanks) sign literal
  | grouped opening inside closing =>
      exact .grouped (opening.after_blanks blanks) inside closing
  | joined c opening first others closing =>
      exact .joined c (opening.after_blanks blanks) first others closing

/-- An expression takes in blanks behind it. -/
theorem Expression.before_blanks {s t rest : List Char} {p : Predicate} (h : Expression s p t)
    (blanks : Blanks t rest) : Expression s p rest := by
  cases h with
  | comparison name sign literal =>
      exact .comparison name sign (literal.before_blanks blanks)
  | grouped opening inside closing =>
      exact .grouped opening inside (closing.before_blanks blanks)
  | joined c opening first others closing =>
      exact .joined c opening first others (closing.before_blanks blanks)

end Grammar

namespace Parser

open Grammar

/-! ### What is found is a reading -/

theorem sound_comparison : Sound comparison Expression := by
  intro s p rest h
  simp only [comparison, label_result, bind_result_eq_some_iff, pure_result, Option.some.injEq,
    Prod.mk.injEq] at h
  obtain ⟨field, s₁, name, _, s₂, sign, value, s₃, literal, rfl, rfl⟩ := h
  apply Expression.comparison (sound_fieldName.padded _ _ _ name)
  · exact padded_char_sound sign
  · exact sound_singleQuoted.padded _ _ _ literal

section Group

variable {operand : Parser Predicate}

/-- One operand behind its connective, as the repetition takes it. -/
theorem sound_operand (sound : Sound operand Expression) (k : Keyword) :
    Sound (keyword k >>= fun _ => operand) (Behind (Padded (Word k)) Expression) := by
  intro s p rest h
  obtain ⟨_, s₁, word, inside⟩ := bind_result_eq_some_iff.mp h
  exact ⟨s₁, sound_keyword k _ _ _ word, sound _ _ _ inside⟩

theorem shrinks_operand (k : Keyword) : Shrinks (Behind (Padded (Word k)) Expression) :=
  shrinks_word.padded.behind shrinks_expression

theorem sound_furtherOperands (sound : Sound operand Expression) (c : Connective) :
    Sound (furtherOperands c.keyword operand) (FurtherOperands c) := fun s ps rest found =>
  furtherOperands_iff_chain.mpr
    ((sound_operand sound c.keyword).many1_chain (shrinks_operand c.keyword) s ps rest found)

/-- The tail of a group are further operands behind the first connective, or else behind the second
one. -/
theorem groupTail_result (operand : Parser Predicate) (s : List Char) :
    (groupTail operand s).result =
      ((furtherOperands .andWord operand s).result.map fun found =>
        (fun first => Predicate.and (first :: found.1), found.2)).or
      ((furtherOperands .orWord operand s).result.map fun found =>
        (fun first => Predicate.or (first :: found.1), found.2)) := by
  rw [groupTail, orElse_result, bind_result, bind_result]
  congr 1
  · rcases (furtherOperands .andWord operand s).result with _ | found <;> rfl
  · rcases (furtherOperands .orWord operand s).result with _ | found <;> rfl

theorem sound_group (sound : Sound operand Expression) : Sound (group operand) Expression := by
  intro s p rest h
  simp only [group, label_result, bind_result_eq_some_iff, optional_result, pure_result,
    Option.some.injEq, Prod.mk.injEq] at h
  obtain ⟨_, s₁, opening, first, s₂, inside, tail, s₃, joined, _, s₄, closing, rfl, rfl⟩ := h
  have opening := padded_char_sound opening
  have closing := padded_char_sound closing
  have inside := sound _ _ _ inside
  rw [groupTail_result] at joined
  cases conjuncts : (furtherOperands .andWord operand s₂).result with
  | some found =>
      rw [conjuncts] at joined
      obtain ⟨rfl, rfl⟩ := Prod.mk.inj joined
      exact .joined .and opening inside (sound_furtherOperands sound .and _ _ _ conjuncts) closing
  | none =>
      rw [conjuncts, Option.map_none, Option.none_or] at joined
      cases disjuncts : (furtherOperands .orWord operand s₂).result with
      | some found =>
          rw [disjuncts] at joined
          obtain ⟨rfl, rfl⟩ := Prod.mk.inj joined
          exact .joined .or opening inside (sound_furtherOperands sound .or _ _ _ disjuncts) closing
      | none =>
          rw [disjuncts] at joined
          obtain ⟨rfl, rfl⟩ := Prod.mk.inj joined
          exact .grouped opening inside closing

end Group

/-- An expression is a group of shorter expressions or a comparison. -/
theorem predicate_eq (s : List Char) :
    predicate s = (group (within s predicate) <|> comparison) s :=
  recursive_eq _ s

/-- Every predicate that is found is a reading of an expression, by induction on the size of the
text. -/
theorem sound_predicate : Sound predicate Expression := by
  intro s p rest h
  induction size : s.length using Nat.strongRecOn generalizing s p rest with
  | ind n ih =>
      have inner : Sound (within s predicate) Expression := by
        intro t q tail found
        obtain ⟨shorter, found⟩ := within_result_eq_some_iff.mp found
        exact ih t.length (size ▸ shorter) _ _ _ found rfl
      rw [predicate_eq, orElse_result, Option.or_eq_some_iff] at h
      rcases h with h | ⟨-, h⟩
      · exact sound_group inner _ _ _ h
      · exact sound_comparison _ _ _ h

/-! ### Every reading is found -/

/-- A name in front of a sign or a keyword does not go on. -/
theorem noDelimiter_of_padded {construct : Reading Unit}
    (never : ∀ c, isAlphabetic c = false → isBlank c = false → c ≠ '=' →
      ∀ s a rest, construct s a rest → s.head? ≠ some c)
    {s rest : List Char} (h : Padded construct s () rest) : NoDelimiter s :=
  ⟨h.head?_ne (by decide) (never _ (by decide) (by decide) (by decide)),
    h.head?_ne (by decide) (never _ (by decide) (by decide) (by decide))⟩

theorem padded_fieldName_complete {construct : Reading Unit} {s s₁ rest : List Char}
    {name : String} (h : Padded Name s name s₁) (next : Padded construct s₁ () rest)
    (never : ∀ c, isAlphabetic c = false → isBlank c = false → c ≠ '=' →
      ∀ s a rest, construct s a rest → s.head? ≠ some c) :
    (padded fieldName (skipBlanks s)).result = some (name, skipBlanks s₁) := by
  rw [padded_skipBlanks]
  apply padded_complete solid_name h
  intro t t' _ inside blanks
  exact fieldName_complete inside (noDelimiter_of_padded never (next.after_blanks blanks))

theorem padded_singleQuoted_complete {s rest : List Char} {value : String}
    (h : Padded Literal s value rest) (behind : rest.head? ≠ some '\x27') :
    (padded singleQuoted (skipBlanks s)).result = some (value, skipBlanks rest) := by
  rw [padded_skipBlanks]
  apply padded_complete (solid_quoted (by decide)) h
  intro t t' _ inside blanks
  apply singleQuoted_complete inside
  intro head
  apply behind
  rw [blanks.eq_of_head? head (by decide)]
  exact head

theorem comparison_complete {s s₁ s₂ rest : List Char} {field value : String}
    (name : Padded Name s field s₁) (sign : Padded (Sign '=') s₁ () s₂)
    (literal : Padded Literal s₂ value rest) (behind : rest.head? ≠ some '\x27') :
    (comparison (skipBlanks s)).result = some (.equal field value, skipBlanks rest) := by
  have name := padded_fieldName_complete name sign fun c _ _ differ =>
    head?_ne_of_letters (Ne.symm differ)
  have sign := padded_char_complete (by decide) sign
  have literal := padded_singleQuoted_complete literal behind
  rw [← padded_skipBlanks] at sign
  simp only [comparison, label_result, bind_result_eq_some_iff]
  exact ⟨_, _, name, _, _, sign, _, _, literal, rfl⟩

/-- The parser finds the expressions of all texts below a size, up to the blanks behind them, where
no quote follows. -/
def FindsExpressions (operand : Parser Predicate) (size : Nat) : Prop :=
  ∀ s p rest, s.length < size → Expression s p rest → rest.head? ≠ some '\x27' →
    (operand (skipBlanks s)).result = some (p, skipBlanks rest)

section Group

variable {operand : Parser Predicate} {n : Nat}

theorem furtherOperands_complete (sound : Sound operand Expression)
    (complete : FindsExpressions operand n) {c : Connective} {s rest : List Char}
    {ps : List Predicate} (others : FurtherOperands c s ps rest) (size : s.length < n)
    (behind : rest.head? ≠ some '\x27') (stop : (keyword c.keyword rest).result = none) :
    (furtherOperands c.keyword operand (skipBlanks s)).result = some (ps, skipBlanks rest) := by
  apply many1_chain_complete (fun t => t.head? ≠ some '\x27') s.length
    (sound_operand sound c.keyword) (shrinks_operand c.keyword) ?_ ?_ others.chain (Nat.le_refl _)
    behind ?_
  · intro t t₁ word
    exact word.head?_ne (by decide) (head?_ne_of_word (by decide))
  · intro t p tail bound reading follow
    obtain ⟨t₁, word, inside⟩ := reading
    have shorter : t₁.length < n := by
      have := shrinks_word.padded _ _ _ word
      omega
    have word := keyword_complete word
    rw [keyword, ← padded_skipBlanks] at word
    exact bind_result_eq_some_iff.mpr ⟨(), _, word, complete _ _ _ shorter inside follow⟩
  · rw [keyword, ← padded_skipBlanks] at stop
    rw [bind_result, keyword, stop]
    rfl

theorem group_result {s s₁ s₂ s₃ rest : List Char} {first : Predicate}
    (tail : Option (Predicate → Predicate))
    (opening : (padded (char '(') s).result = some ('(', s₁))
    (inside : (operand s₁).result = some (first, s₂))
    (joined : (optional (groupTail operand) s₂).result = some (tail, s₃))
    (closing : (padded (char ')') s₃).result = some (')', rest)) :
    (group operand s).result = some (tail.elim first fun join => join first, rest) := by
  simp only [group, label_result, bind_result_eq_some_iff]
  refine ⟨_, _, opening, _, _, inside, _, _, joined, _, _, closing, ?_⟩
  cases tail <;> rfl

/-- What stands behind the last operand of a group: the closing sign. -/
theorem closing_complete {s rest : List Char} (closing : Padded (Sign ')') s () rest) :
    s.head? ≠ some '\x27' ∧ (∀ k, (keyword k s).result = none) ∧
      (padded (char ')') (skipBlanks s)).result = some (')', skipBlanks rest) := by
  refine ⟨closing.head?_ne (by decide) (head?_ne_of_letters (by decide)), ?_, ?_⟩
  · exact fun k => keyword_result_of_sign (by decide) (by decide) closing
  · rw [padded_skipBlanks]
    exact padded_char_complete (by decide) closing

theorem furtherOperands_result_of_none {k : Keyword} {s : List Char}
    (stop : (keyword k s).result = none) :
    (furtherOperands k operand (skipBlanks s)).result = none := by
  rw [keyword, ← padded_skipBlanks] at stop
  rw [furtherOperands, many1_result, bind_result, keyword, stop]
  rfl

/-- The opening sign of a group, and what is left behind it. -/
theorem opening_complete {s rest : List Char} (opening : Padded (Sign '(') s () rest) :
    rest.length < (skipBlanks s).length ∧
      (padded (char '(') (skipBlanks s)).result = some ('(', skipBlanks rest) := by
  refine ⟨opening.length_lt (shrinks_sign '(') (solid_sign (by decide)), ?_⟩
  rw [padded_skipBlanks]
  exact padded_char_complete (by decide) opening

theorem grouped_complete {s s₁ s₂ rest : List Char} {p : Predicate}
    (complete : FindsExpressions operand (skipBlanks s).length)
    (opening : Padded (Sign '(') s () s₁) (inside : Expression s₁ p s₂)
    (closing : Padded (Sign ')') s₂ () rest) :
    (group operand (skipBlanks s)).result = some (p, skipBlanks rest) := by
  obtain ⟨start, opening⟩ := opening_complete opening
  obtain ⟨follow, noKeyword, closing⟩ := closing_complete closing
  apply group_result none opening (complete _ _ _ start inside follow) ?_ closing
  rw [optional_result, groupTail_result, furtherOperands_result_of_none (noKeyword _),
    furtherOperands_result_of_none (noKeyword _)]
  rfl

/-- Where operands follow behind a connective, that connective stands. -/
theorem exists_keyword_of_furtherOperands {c : Connective} {s rest : List Char}
    {ps : List Predicate} (others : FurtherOperands c s ps rest) :
    ∃ t, Padded (Word c.keyword) s () t := by
  cases others with
  | one word _ => exact ⟨_, word⟩
  | more word _ _ => exact ⟨_, word⟩

/-- The tail of a group are the operands that are found behind one connective, since no other connective
stands in its place. -/
theorem groupTail_complete {c : Connective} {s t rest : List Char} {ps : List Predicate}
    (word : Padded (Word c.keyword) s () t)
    (others : (furtherOperands c.keyword operand (skipBlanks s)).result = some (ps, rest)) :
    (groupTail operand (skipBlanks s)).result = some (fun first => c.join (first :: ps), rest) := by
  rw [groupTail_result]
  cases c with
  | and =>
      rw [show (furtherOperands .andWord operand (skipBlanks s)).result = _ from others]
      rfl
  | or =>
      have noConjunct : (keyword .andWord s).result = none :=
        keyword_result_of_other (by decide) word
      rw [furtherOperands_result_of_none noConjunct,
        show (furtherOperands .orWord operand (skipBlanks s)).result = _ from others]
      rfl

theorem joined_complete {c : Connective} {s s₁ s₂ s₃ rest : List Char} {p : Predicate}
    {ps : List Predicate} (sound : Sound operand Expression)
    (complete : FindsExpressions operand (skipBlanks s).length)
    (opening : Padded (Sign '(') s () s₁) (first : Expression s₁ p s₂)
    (others : FurtherOperands c s₂ ps s₃) (closing : Padded (Sign ')') s₃ () rest) :
    (group operand (skipBlanks s)).result = some (c.join (p :: ps), skipBlanks rest) := by
  obtain ⟨start, opening⟩ := opening_complete opening
  obtain ⟨follow, noKeyword, closing⟩ := closing_complete closing
  obtain ⟨t, word⟩ := exists_keyword_of_furtherOperands others
  have inside := complete _ _ _ start first
    (word.head?_ne (by decide) (head?_ne_of_word (by decide)))
  have shorter : s₂.length < (skipBlanks s).length := Nat.lt_trans first.length_lt start
  have found := furtherOperands_complete sound complete others shorter follow (noKeyword c.keyword)
  apply group_result (some fun q => c.join (q :: ps)) opening inside ?_ closing
  rw [optional_result, groupTail_complete word found]
  rfl

end Group

theorem head?_ne_of_name (s : List Char) (name : String) (rest : List Char)
    (h : Name s name rest) : s.head? ≠ some '(' := by
  intro head
  cases h with
  | bare chars =>
      obtain ⟨c, head', inside⟩ := chars.exists_head
      rw [head] at head'
      rw [← Option.some.inj head'] at inside
      exact absurd inside (by decide)
  | doubleQuoted quoted =>
      cases quoted
      rw [List.head?_cons] at head
      exact absurd (Option.some.inj head) (by decide)
  | backticks quoted =>
      cases quoted
      rw [List.head?_cons] at head
      exact absurd (Option.some.inj head) (by decide)

/-- A comparison is not read as a group. -/
theorem group_result_of_name {operand : Parser Predicate} {s rest : List Char} {name : String}
    (h : Padded Name s name rest) : (group operand (skipBlanks s)).result = none := by
  cases found : (group operand (skipBlanks s)).result with
  | none => rfl
  | some pair =>
      simp only [group, label_result, bind_result_eq_some_iff] at found
      obtain ⟨_, s₁, opening, -⟩ := found
      rw [padded_skipBlanks] at opening
      obtain ⟨t, inside, -⟩ := padded_result_eq_some_iff.mp opening
      obtain ⟨start, -⟩ := char_result_eq_some_iff.mp inside
      have head : (skipBlanks s).head? = some '(' := by
        rw [start]
        rfl
      obtain ⟨u, name⟩ := h.exists_inside solid_name (.skip s) head (by decide)
      exact absurd head (head?_ne_of_name _ _ _ name)

/-- Every reading of an expression is found, by induction on the size of the text. -/
theorem predicate_complete {s rest : List Char} {p : Predicate} (h : Expression s p rest)
    (behind : rest.head? ≠ some '\x27') :
    (predicate (skipBlanks s)).result = some (p, skipBlanks rest) := by
  induction size : s.length using Nat.strongRecOn generalizing s p rest with
  | ind n ih =>
      have sound : Sound (within (skipBlanks s) predicate) Expression := sound_predicate.within _
      have complete :
          FindsExpressions (within (skipBlanks s) predicate) (skipBlanks s).length := by
        intro t q tail shorter inside follow
        have := (Blanks.skip s).length_le
        have := (Blanks.skip t).length_le
        rw [within_result_of_lt (by omega)]
        exact ih t.length (by omega) inside follow rfl
      rw [predicate_eq, orElse_result]
      cases h with
      | comparison name sign literal =>
          rw [group_result_of_name name, Option.none_or]
          exact comparison_complete name sign literal behind
      | grouped opening inside closing =>
          rw [grouped_complete complete opening inside closing]
          rfl
      | joined c opening first others closing =>
          rw [joined_complete sound complete opening first others closing]
          rfl

/-! ### Whole texts -/

theorem barePredicate_result_eq_some_iff {s rest : List Char} {p : Predicate} :
    (barePredicate s).result = some (p, rest) ↔ Expression s p [] ∧ rest = [] := by
  unfold barePredicate
  simp only [bind_result_eq_some_iff, padded_result_eq_some_iff, pure_result, Option.some.injEq,
    Prod.mk.injEq]
  constructor
  · rintro ⟨q, s₁, ⟨tail, found, rfl⟩, ⟨⟩, s₂, done, rfl, rfl⟩
    obtain ⟨empty, rfl⟩ := endOfInput_result_eq_some_iff.mp done
    have inside := (sound_predicate _ _ _ found).before_blanks (.skip tail)
    rw [empty] at inside
    exact ⟨inside.after_blanks (.skip s), rfl⟩
  · rintro ⟨reading, rfl⟩
    have found := predicate_complete reading (by simp)
    exact ⟨p, _, ⟨_, found, rfl⟩, (), [], endOfInput_result_eq_some_iff.mpr ⟨rfl, rfl⟩, rfl, rfl⟩

theorem statement_result_eq_some_iff {s rest : List Char} {st : Statement} :
    (statement s).result = some (st, rest) ↔ StatementText s st ∧ rest = [] := by
  simp only [statement, bind_result_eq_some_iff, label_result, pure_result, Option.some.injEq,
    Prod.mk.injEq]
  constructor
  · rintro ⟨⟨⟩, s₁, select, _, s₂, star, ⟨⟩, s₃, word, collection, s₄, name, ⟨⟩, s₅, condition,
      p, s₆, found, ⟨⟩, s₇, done, rfl, rfl⟩
    obtain ⟨rfl, rfl⟩ := endOfInput_result_eq_some_iff.mp done
    constructor
    · apply StatementText.intro (sound_keyword _ _ _ _ select)
      · exact padded_char_sound star
      · exact sound_keyword _ _ _ _ word
      · exact sound_fieldName.padded _ _ _ name
      · exact sound_keyword _ _ _ _ condition
      · exact sound_predicate _ _ _ found
    · rfl
  · rintro ⟨reading, rfl⟩
    cases reading with
    | intro select star word name condition expression =>
        have select := keyword_complete select
        have star := padded_char_complete (by decide) star
        have word := keyword_complete word
        have name := padded_fieldName_complete name condition fun c noLetter _ _ =>
          head?_ne_of_word noLetter
        have condition := keyword_complete condition
        have found := predicate_complete expression (by simp)
        rw [← padded_skipBlanks] at star
        rw [keyword, ← padded_skipBlanks] at word condition
        have done := endOfInput_result_eq_some_iff.mpr ⟨rfl, rfl⟩
        exact ⟨(), _, select, _, _, star, (), _, word, _, _, name, (), _, condition, _, _, found,
          (), [], done, rfl, rfl⟩

end Parser

open Grammar

namespace Predicate

/-- A bare predicate is read exactly where the whole text is an expression. -/
theorem parse_eq_ok_iff {text : String} {p : Predicate} :
    parse text = .ok p ↔ Expression text.toList p [] := by
  rw [parse, Parser.readAll_eq_ok_iff]
  simp only [Parser.barePredicate_result_eq_some_iff, exists_and_left, exists_eq, and_true]

end Predicate

namespace Statement

/-- A statement is read exactly where the grammar has it. -/
theorem parse_eq_ok_iff {text : String} {st : Statement} :
    parse text = .ok st ↔ StatementText text.toList st := by
  rw [parse, Parser.readAll_eq_ok_iff]
  simp only [Parser.statement_result_eq_some_iff, exists_and_left, exists_eq, and_true]

end Statement

/-- The statement dialect is read exactly as its grammar says, both where a predicate stands on its own
and in a statement, and no text has two trees. -/
theorem statementDialect_reads_grammar :
    (∀ (text : String) (p : Predicate), Predicate.parse text = .ok p ↔
      Expression text.toList p []) ∧
    (∀ (text : String) (st : Statement), Statement.parse text = .ok st ↔
      StatementText text.toList st) ∧
    (∀ (s : List Char) (p q : Predicate), Expression s p [] → Expression s q [] → p = q) ∧
    (∀ (s : List Char) (st st' : Statement), StatementText s st → StatementText s st' →
      st = st') := by
  refine ⟨?_, ?_, ?_, ?_⟩
  · intro text p
    exact Predicate.parse_eq_ok_iff
  · intro text st
    exact Statement.parse_eq_ok_iff
  · intro s p q reading other
    have found := Parser.barePredicate_result_eq_some_iff.mpr ⟨reading, rfl⟩
    rw [Parser.barePredicate_result_eq_some_iff.mpr ⟨other, rfl⟩] at found
    exact (Prod.mk.inj (Option.some.inj found)).1.symm
  · intro s st st' reading other
    have found := Parser.statement_result_eq_some_iff.mpr ⟨reading, rfl⟩
    rw [Parser.statement_result_eq_some_iff.mpr ⟨other, rfl⟩] at found
    exact (Prod.mk.inj (Option.some.inj found)).1.symm

end RecordQuery
