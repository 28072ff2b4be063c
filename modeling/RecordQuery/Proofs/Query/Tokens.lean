import RecordQuery.Query.Token
import RecordQuery.Proofs.Query.Grammar
import RecordQuery.Proofs.Query.Results
import RecordQuery.Proofs.Unicode.Classes

/-!
# Tokens are read as the grammar says

Every token parser finds only readings of its construct, and it finds a given reading unless the text
behind it goes on in a way that changes the token. A padded parser always stops behind all blanks, so
its readings are found up to the blanks at the end.
-/

namespace RecordQuery

namespace Parser

open Grammar

variable {α : Type}

/-- The parser takes in some of the text whenever it succeeds. -/
def Progresses (p : Parser α) : Prop :=
  ∀ s a rest, (p s).result = some (a, rest) → rest.length < s.length

/-- The parser finds only readings of the construct. -/
def Sound (p : Parser α) (construct : Reading α) : Prop :=
  ∀ s a rest, (p s).result = some (a, rest) → construct s a rest

theorem Sound.progresses {p : Parser α} {construct : Reading α} (sound : Sound p construct)
    (shrinks : Shrinks construct) : Progresses p := by
  intro s a rest h
  exact shrinks s a rest (sound s a rest h)

/-- A parser that is restricted to shorter texts finds no more. -/
theorem Sound.within {p : Parser α} {construct : Reading α} (sound : Sound p construct)
    (s : List Char) : Sound (within s p) construct := by
  intro t a rest h
  exact sound t a rest (within_result_eq_some_iff.mp h).2

/-- What a repetition finds, by induction on the items that it takes. -/
theorem many_induction {p : Parser α} (progress : Progresses p)
    {motive : List Char → List α → List Char → Prop}
    (stop : ∀ s, (p s).result = none → motive s [] s)
    (step : ∀ s s₁ rest a as, (p s).result = some (a, s₁) → motive s₁ as rest →
      motive s (a :: as) rest)
    {s rest : List Char} {as : List α} (h : (many p s).result = some (as, rest)) :
    motive s as rest := by
  induction size : s.length using Nat.strongRecOn generalizing s as with
  | ind n ih =>
      cases first : (p s).result with
      | none =>
          rw [many_result_of_none first] at h
          obtain ⟨rfl, rfl⟩ := Prod.mk.inj (Option.some.inj h)
          exact stop s first
      | some found =>
          obtain ⟨a, s₁⟩ := found
          have shorter := progress s a s₁ first
          rw [many_result_of_some first shorter] at h
          obtain ⟨⟨others, rest'⟩, tail, same⟩ := Option.map_eq_some_iff.mp h
          obtain ⟨rfl, rfl⟩ := Prod.mk.inj same
          exact step s s₁ _ a others first (ih s₁.length (size ▸ shorter) tail rfl)

/-- A padded parser finds only readings of the padded construct. -/
theorem Sound.padded {p : Parser α} {construct : Reading α} (sound : Sound p construct) :
    Sound (padded p) (Padded construct) := by
  intro s a rest h
  obtain ⟨t, inside, rfl⟩ := padded_result_eq_some_iff.mp h
  exact .intro (.skip s) (sound _ _ _ inside) (.skip t)

/-- Leading blanks make no difference to a padded parser. -/
theorem padded_skipBlanks (p : Parser α) (s : List Char) :
    (padded p (skipBlanks s)).result = (padded p s).result := by
  rw [padded_result, padded_result, skipBlanks_idem]

/-- What stands between blanks is found by the padded parser, up to the blanks at the end. -/
theorem padded_result_of_inside {β : Type} {p : Parser β} {s s₁ s₂ rest : List Char} {b : β}
    {c : Char} (before : Blanks s s₁) (head : s₁.head? = some c) (notBlank : isBlank c = false)
    (found : (p s₁).result = some (b, s₂)) (after : Blanks s₂ rest) :
    (padded p s).result = some (b, skipBlanks rest) := by
  have start : skipBlanks s = s₁ :=
    before.skipBlanks_eq.trans (skipBlanks_of_head? head notBlank)
  rw [padded_result, start, found, ← after.skipBlanks_eq]
  rfl

/-- A padded parser finds the readings of a padded construct, up to the blanks at the end. -/
theorem padded_complete {p : Parser α} {construct : Reading α} (solid : Solid construct)
    {s rest : List Char} {a : α} (h : Padded construct s a rest)
    (complete : ∀ s₁ s₂, Blanks s s₁ → construct s₁ a s₂ → Blanks s₂ rest →
      (p s₁).result = some (a, s₂)) :
    (padded p s).result = some (a, skipBlanks rest) := by
  cases h with
  | intro before inside after =>
      obtain ⟨c, head, notBlank⟩ := solid _ _ _ inside
      exact padded_result_of_inside before head notBlank (complete _ _ before inside after) after

/-! ### Signs and keywords -/

theorem char_sound {c d : Char} {s rest : List Char} (h : (char c s).result = some (d, rest)) :
    Sign c s () rest := by
  obtain ⟨rfl, -⟩ := char_result_eq_some_iff.mp h
  exact Letters.intro

theorem char_complete {c : Char} {s rest : List Char} (h : Sign c s () rest) :
    (char c s).result = some (c, rest) := by
  cases h with
  | intro => exact char_result_eq_some_iff.mpr ⟨rfl, rfl⟩

theorem padded_char_sound {c d : Char} {s rest : List Char}
    (h : (padded (char c) s).result = some (d, rest)) : Padded (Sign c) s () rest := by
  obtain ⟨t, inside, rfl⟩ := padded_result_eq_some_iff.mp h
  exact .intro (.skip s) (char_sound inside) (.skip t)

theorem padded_char_complete {c : Char} (solid : isBlank c = false) {s rest : List Char}
    (h : Padded (Sign c) s () rest) :
    (padded (char c) s).result = some (c, skipBlanks rest) := by
  cases h with
  | intro before inside after =>
      exact padded_result_of_inside before inside.head?_eq solid (char_complete inside) after

theorem word_reads {k : Keyword} {s rest : List Char} :
    (word k s).result = some ((), rest) ↔ Word k s () rest := by
  rw [word_result_eq_some_iff]
  constructor
  · rintro ⟨spelled, rfl⟩
    have same : (s.takeWhile isAlphabetic).map Char.toUpper = k.text.toList := by
      simpa [Keyword.spelledBy] using spelled
    have nonempty : s.takeWhile isAlphabetic ≠ [] := by
      intro empty
      rw [empty] at same
      cases k <;> exact absurd same (by decide)
    exact .intro (run_iff.mpr ⟨nonempty, rfl, rfl⟩) same
  · intro h
    cases h with
    | intro run same =>
        obtain ⟨-, rfl, rfl⟩ := run_iff.mp run
        exact ⟨by simpa [Keyword.spelledBy] using same, rfl⟩

theorem sound_keyword (k : Keyword) : Sound (keyword k) (Padded (Word k)) := by
  apply Sound.padded
  intro s u rest found
  exact word_reads.mp found

theorem keyword_complete {k : Keyword} {s rest : List Char} (h : Padded (Word k) s () rest) :
    (keyword k s).result = some ((), skipBlanks rest) :=
  padded_complete solid_word h fun _ _ _ inside _ => word_reads.mpr inside

/-- Where one keyword stands, no other one does. -/
theorem keyword_result_of_other {k other : Keyword} {s rest : List Char} (differ : k ≠ other)
    (h : Padded (Word k) s () rest) : (keyword other s).result = none := by
  cases found : (keyword other s).result with
  | none => rfl
  | some pair =>
      obtain ⟨⟨⟩, tail⟩ := pair
      obtain ⟨t, inside, -⟩ := padded_result_eq_some_iff.mp (keyword_complete h)
      obtain ⟨t', inside', -⟩ := padded_result_eq_some_iff.mp found
      exact absurd ((word_reads.mp inside).eq_keyword (word_reads.mp inside')) differ

/-- Where a sign stands that is no letter, no keyword does. -/
theorem keyword_result_of_sign {k : Keyword} {c : Char} {s rest : List Char}
    (solid : isBlank c = false) (noLetter : isAlphabetic c = false)
    (h : Padded (Sign c) s () rest) : (keyword k s).result = none := by
  cases found : (keyword k s).result with
  | none => rfl
  | some pair =>
      obtain ⟨⟨⟩, tail⟩ := pair
      obtain ⟨t, inside, -⟩ := padded_result_eq_some_iff.mp (padded_char_complete solid h)
      obtain ⟨t', inside', -⟩ := padded_result_eq_some_iff.mp found
      obtain ⟨start, -⟩ := char_result_eq_some_iff.mp inside
      obtain ⟨d, head, letter⟩ := (word_reads.mp inside').exists_head
      rw [start] at head
      rw [← Option.some.inj head, noLetter] at letter
      cases letter

/-! ### Names and literals -/

/-- A parser for one character of a delimited string: a delimiter written twice, or any other
character. -/
def ReadsDoubling (item : Parser Char) (delimiter : Char) : Prop :=
  ∀ s c rest, (item s).result = some (c, rest) ↔
    (s = delimiter :: delimiter :: rest ∧ c = delimiter) ∨ (s = c :: rest ∧ c ≠ delimiter)

theorem doubled_result_eq_some_iff {delimiter c : Char} {s rest : List Char} :
    (doubled delimiter s).result = some (c, rest) ↔
      s = delimiter :: delimiter :: rest ∧ c = delimiter := by
  simp only [doubled, bind_result_eq_some_iff, char_result_eq_some_iff]
  constructor
  · rintro ⟨d, tail, ⟨rfl, -⟩, rfl, rfl⟩
    exact ⟨rfl, rfl⟩
  · rintro ⟨rfl, rfl⟩
    exact ⟨c, c :: rest, ⟨rfl, rfl⟩, rfl, rfl⟩

/-- A choice between a doubled delimiter and a parser for all other characters. -/
theorem readsDoubling_orElse {plain : Parser Char} {delimiter : Char}
    (h : ∀ s c rest, (plain s).result = some (c, rest) ↔ s = c :: rest ∧ c ≠ delimiter) :
    ReadsDoubling (doubled delimiter <|> plain) delimiter := by
  intro s c rest
  rw [orElse_result]
  cases first : (doubled delimiter s).result with
  | none =>
      rw [Option.none_or, h]
      constructor
      · exact .inr
      · rintro (twice | other)
        · rw [doubled_result_eq_some_iff.mpr twice] at first
          cases first
        · exact other
  | some found =>
      obtain ⟨d, tail⟩ := found
      obtain ⟨rfl, rfl⟩ := doubled_result_eq_some_iff.mp first
      rw [Option.some_or, Option.some.injEq, Prod.mk.injEq]
      constructor
      · rintro ⟨rfl, rfl⟩
        exact .inl ⟨rfl, rfl⟩
      · rintro (⟨start, rfl⟩ | ⟨start, other⟩)
        · exact ⟨rfl, (List.cons.inj (List.cons.inj start).2).2⟩
        · exact absurd (List.cons.inj start).1.symm other

namespace ReadsDoubling

variable {item : Parser Char} {delimiter : Char}

theorem progresses (reads : ReadsDoubling item delimiter) : Progresses item := by
  intro s c rest h
  rcases (reads s c rest).mp h with ⟨rfl, -⟩ | ⟨rfl, -⟩
  · simp only [List.length_cons]
    omega
  · simp

/-- A repetition finds a body in which delimiters are doubled. -/
theorem many_sound (reads : ReadsDoubling item delimiter) {s rest value : List Char}
    (h : (many item s).result = some (value, rest)) :
    ∃ written, s = written ++ rest ∧ Doubling delimiter written value := by
  apply many_induction reads.progresses
    (motive := fun s value rest => ∃ written, s = written ++ rest ∧
      Doubling delimiter written value) ?_ ?_ h
  · intro s _
    exact ⟨[], rfl, .nil⟩
  · intro s s₁ rest c value first ih
    obtain ⟨written, rfl, body⟩ := ih
    rcases (reads _ _ _).mp first with ⟨rfl, rfl⟩ | ⟨rfl, other⟩
    · exact ⟨c :: c :: written, rfl, body.doubled⟩
    · exact ⟨c :: written, rfl, body.plain other⟩

/-- A repetition finds every body up to the closing delimiter, unless another delimiter follows. -/
theorem many_complete (reads : ReadsDoubling item delimiter) {written value rest : List Char}
    (body : Doubling delimiter written value) (behind : rest.head? ≠ some delimiter) :
    (many item (written ++ delimiter :: rest)).result = some (value, delimiter :: rest) := by
  induction body with
  | nil =>
      apply many_result_of_none
      rw [List.nil_append]
      cases found : (item (delimiter :: rest)).result with
      | none => rfl
      | some pair =>
          obtain ⟨c, tail⟩ := pair
          rcases (reads _ _ _).mp found with ⟨start, -⟩ | ⟨start, other⟩
          · rw [(List.cons.inj start).2] at behind
            exact absurd rfl behind
          · exact absurd (List.cons.inj start).1.symm other
  | @plain c written value other body ih =>
      have first := (reads (c :: (written ++ delimiter :: rest)) c _).mpr (.inr ⟨rfl, other⟩)
      rw [List.cons_append, many_result_of_some first (by simp), ih]
      rfl
  | @doubled written value body ih =>
      have first := (reads (delimiter :: delimiter :: (written ++ delimiter :: rest)) _ _).mpr
        (.inl ⟨rfl, rfl⟩)
      rw [List.cons_append, List.cons_append,
        many_result_of_some first (by simp only [List.length_cons]; omega), ih]
      rfl

end ReadsDoubling

/-- Items between two delimiters: the form that all delimited strings have. -/
def between (delimiter : Char) (item : Parser Char) : Parser String := do
  let _ ← char delimiter
  let value ← many item
  let _ ← char delimiter
  return String.ofList value

theorem between_result_eq_some_iff {item : Parser Char} {delimiter : Char} {s rest : List Char}
    {string : String} :
    (between delimiter item s).result = some (string, rest) ↔
      ∃ tail value, s = delimiter :: tail ∧
        (many item tail).result = some (value, delimiter :: rest) ∧
          string = String.ofList value := by
  unfold between
  simp only [bind_result_eq_some_iff, many_bind_result_eq_some_iff, char_result_eq_some_iff,
    pure_result, Option.some.injEq, Prod.mk.injEq]
  constructor
  · rintro ⟨_, tail, ⟨rfl, -⟩, value, _, inside, _, _, ⟨rfl, -⟩, rfl, rfl⟩
    exact ⟨tail, value, rfl, inside, rfl⟩
  · rintro ⟨tail, value, rfl, inside, rfl⟩
    exact ⟨delimiter, tail, ⟨rfl, rfl⟩, value, _, inside, delimiter, rest, ⟨rfl, rfl⟩, rfl, rfl⟩

theorem sound_between {item : Parser Char} {delimiter : Char}
    (reads : ReadsDoubling item delimiter) :
    Sound (between delimiter item) (Quoted delimiter) := by
  intro s string rest h
  obtain ⟨tail, value, rfl, inside, rfl⟩ := between_result_eq_some_iff.mp h
  obtain ⟨written, rfl, body⟩ := reads.many_sound inside
  exact .intro body

theorem between_complete {item : Parser Char} {delimiter : Char}
    (reads : ReadsDoubling item delimiter) {s rest : List Char} {string : String}
    (h : Quoted delimiter s string rest) (behind : rest.head? ≠ some delimiter) :
    (between delimiter item s).result = some (string, rest) := by
  cases h with
  | intro body =>
      exact between_result_eq_some_iff.mpr ⟨_, _, rfl, reads.many_complete body behind, rfl⟩

theorem readsDoubling_name (delimiter : Char) :
    ReadsDoubling (doubled delimiter <|> charWhere fun c => c != delimiter) delimiter :=
  readsDoubling_orElse fun s c rest => by simp [charWhere_result_eq_some_iff]

theorem sound_delimitedName (delimiter : Char) :
    Sound (delimitedName delimiter) (Quoted delimiter) :=
  sound_between (readsDoubling_name delimiter)

theorem delimitedName_complete {delimiter : Char} {s rest : List Char} {name : String}
    (h : Quoted delimiter s name rest) (behind : rest.head? ≠ some delimiter) :
    (delimitedName delimiter s).result = some (name, rest) :=
  between_complete (readsDoubling_name delimiter) h behind

theorem readsDoubling_literal :
    ReadsDoubling (doubled '\x27' <|> charOtherThan '\x27') '\x27' :=
  readsDoubling_orElse fun _ _ _ => charOtherThan_result_eq_some_iff

theorem sound_singleQuoted : Sound singleQuoted Literal := sound_between readsDoubling_literal

theorem singleQuoted_complete {s rest : List Char} {value : String} (h : Literal s value rest)
    (behind : rest.head? ≠ some '\x27') : (singleQuoted s).result = some (value, rest) :=
  between_complete readsDoubling_literal h behind

theorem bareName_result_eq_some_iff {s rest : List Char} {name : String} :
    (bareName s).result = some (name, rest) ↔
      ∃ run, Run isNameChar s run rest ∧ name = String.ofList run := by
  rw [bareName, label_result, bind_result_eq_some_iff]
  simp only [many1_charWhere_result, pure_result, Option.some.injEq, Prod.mk.injEq]
  constructor
  · rintro ⟨run, tail, found, rfl, rfl⟩
    split at found
    · cases found
    · rename_i nonempty
      obtain ⟨rfl, rfl⟩ := Prod.mk.inj (Option.some.inj found)
      exact ⟨_, run_iff.mpr ⟨nonempty, rfl, rfl⟩, rfl⟩
  · rintro ⟨run, reading, rfl⟩
    obtain ⟨nonempty, rfl, rfl⟩ := run_iff.mp reading
    exact ⟨_, _, if_neg nonempty, rfl, rfl⟩

theorem fieldName_result (s : List Char) :
    (fieldName s).result =
      (bareName s).result.or
        ((delimitedName '\x22' s).result.or (delimitedName '\x60' s).result) := by
  rw [fieldName, label_result, orElse_result, orElse_result]

theorem sound_fieldName : Sound fieldName Name := by
  intro s name rest h
  rw [fieldName_result, Option.or_eq_some_iff, Option.or_eq_some_iff] at h
  rcases h with bare | ⟨-, quoted | ⟨-, quoted⟩⟩
  · obtain ⟨run, reading, rfl⟩ := bareName_result_eq_some_iff.mp bare
    exact .bare reading
  · exact .doubleQuoted (sound_delimitedName _ _ _ _ quoted)
  · exact .backticks (sound_delimitedName _ _ _ _ quoted)

/-- A delimited name is not read as anything else. -/
theorem bareName_result_of_quoted {delimiter : Char} {s rest : List Char} {name : String}
    (outside : isNameChar delimiter = false) (h : Quoted delimiter s name rest) :
    (bareName s).result = none := by
  cases found : (bareName s).result with
  | none => rfl
  | some pair =>
      obtain ⟨other, tail⟩ := pair
      obtain ⟨run, reading, -⟩ := bareName_result_eq_some_iff.mp found
      obtain ⟨c, head, inside⟩ := reading.exists_head
      cases h with
      | intro body =>
          rw [← Option.some.inj head, outside] at inside
          cases inside

theorem delimitedName_result_of_other {delimiter other : Char} {s rest : List Char}
    {name : String} (differ : delimiter ≠ other) (h : Quoted delimiter s name rest) :
    (delimitedName other s).result = none := by
  cases found : (delimitedName other s).result with
  | none => rfl
  | some pair =>
      obtain ⟨name', tail⟩ := pair
      obtain ⟨tail, value, start, -⟩ := between_result_eq_some_iff.mp found
      cases h with
      | intro body => exact absurd (List.cons.inj start).1 differ

/-- Whether a text does not go on with a delimiter of names. -/
def NoDelimiter (rest : List Char) : Prop :=
  rest.head? ≠ some '\x22' ∧ rest.head? ≠ some '\x60'

theorem fieldName_complete {s rest : List Char} {name : String} (h : Name s name rest)
    (behind : NoDelimiter rest) : (fieldName s).result = some (name, rest) := by
  rw [fieldName_result]
  cases h with
  | bare reading =>
      rw [bareName_result_eq_some_iff.mpr ⟨_, reading, rfl⟩]
      rfl
  | doubleQuoted quoted =>
      rw [bareName_result_of_quoted (by decide) quoted, Option.none_or,
        delimitedName_complete quoted behind.1]
      rfl
  | backticks quoted =>
      rw [bareName_result_of_quoted (by decide) quoted, Option.none_or,
        delimitedName_result_of_other (by decide) quoted, Option.none_or,
        delimitedName_complete quoted behind.2]

/-! ### String arguments -/

theorem escaped_result_eq_some_iff {s rest : List Char} {c : Char} :
    (escaped s).result = some (c, rest) ↔ s = '\\' :: c :: rest ∧ Escapable c := by
  simp only [escaped, bind_result_eq_some_iff, char_result_eq_some_iff, oneOf_result_eq_some_iff]
  constructor
  · rintro ⟨_, tail, ⟨rfl, -⟩, rfl, can⟩
    exact ⟨rfl, by simpa [Escapable] using can⟩
  · rintro ⟨rfl, can⟩
    exact ⟨_, _, ⟨rfl, rfl⟩, rfl, by simpa [Escapable] using can⟩

/-- One character of a string argument: an escape where one stands, and the next character unless it
is a double quote. -/
theorem argumentItem_result_eq_some_iff {s rest : List Char} {c : Char} :
    ((escaped <|> charOtherThan '\x22') s).result = some (c, rest) ↔
      (s = '\\' :: c :: rest ∧ Escapable c) ∨
        (s = c :: rest ∧ c ≠ '\x22' ∧ (c = '\\' → ∀ d ∈ rest.head?, ¬ Escapable d)) := by
  rw [orElse_result, Option.or_eq_some_iff, escaped_result_eq_some_iff,
    charOtherThan_result_eq_some_iff]
  apply or_congr Iff.rfl
  constructor
  · rintro ⟨noEscape, rfl, notQuote⟩
    refine ⟨rfl, notQuote, ?_⟩
    rintro rfl d head can
    cases rest with
    | nil => cases head
    | cons e tail =>
        obtain rfl := Option.some.inj head
        rw [escaped_result_eq_some_iff.mpr ⟨rfl, can⟩] at noEscape
        cases noEscape
  · rintro ⟨rfl, notQuote, alone⟩
    refine ⟨?_, rfl, notQuote⟩
    cases found : (escaped (c :: rest)).result with
    | none => rfl
    | some pair =>
        obtain ⟨d, tail⟩ := pair
        obtain ⟨start, can⟩ := escaped_result_eq_some_iff.mp found
        obtain ⟨rfl, rfl⟩ := List.cons.inj start
        exact absurd can (alone rfl d rfl)

theorem progresses_argumentItem : Progresses (escaped <|> charOtherThan '\x22') := by
  intro s c rest h
  rcases argumentItem_result_eq_some_iff.mp h with ⟨rfl, -⟩ | ⟨rfl, -⟩
  · simp only [List.length_cons]
    omega
  · simp

/-- A closing quote ends a string argument whatever stands behind it. -/
theorem head?_append_quote (written rest : List Char) :
    (written ++ '\x22' :: rest).head? = (written ++ ['\x22']).head? := by
  cases written <;> rfl

theorem many_argumentItem_sound {s rest value : List Char}
    (h : (many (escaped <|> charOtherThan '\x22') s).result = some (value, '\x22' :: rest)) :
    ∃ written, s = written ++ '\x22' :: rest ∧ Escaping written value := by
  apply many_induction progresses_argumentItem
    (motive := fun s value tail => tail = '\x22' :: rest →
      ∃ written, s = written ++ '\x22' :: rest ∧ Escaping written value) ?_ ?_ h rfl
  · rintro s - rfl
    exact ⟨[], rfl, .nil⟩
  · intro s s₁ tail c value first ih closing
    obtain ⟨written, rfl, body⟩ := ih closing
    rcases argumentItem_result_eq_some_iff.mp first with ⟨rfl, can⟩ | ⟨rfl, notQuote, alone⟩
    · exact ⟨'\\' :: c :: written, rfl, body.escaped can⟩
    · rw [head?_append_quote] at alone
      exact ⟨c :: written, rfl, body.plain notQuote alone⟩

theorem many_argumentItem_complete {written value : List Char} (body : Escaping written value)
    (rest : List Char) :
    (many (escaped <|> charOtherThan '\x22') (written ++ '\x22' :: rest)).result =
      some (value, '\x22' :: rest) := by
  induction body with
  | nil =>
      apply many_result_of_none
      cases found : ((escaped <|> charOtherThan '\x22') ([] ++ '\x22' :: rest)).result with
      | none => rfl
      | some pair =>
          obtain ⟨c, tail⟩ := pair
          rcases argumentItem_result_eq_some_iff.mp found with ⟨start, -⟩ | ⟨start, other, -⟩
          · exact absurd (List.cons.inj start).1 (by decide)
          · exact absurd (List.cons.inj start).1.symm other
  | @escaped c written value can body ih =>
      have first := (argumentItem_result_eq_some_iff
        (s := '\\' :: c :: (written ++ '\x22' :: rest))).mpr (.inl ⟨rfl, can⟩)
      rw [List.cons_append, List.cons_append,
        many_result_of_some first (by simp only [List.length_cons]; omega), ih]
      rfl
  | @plain c written value notQuote alone body ih =>
      have behind : c = '\\' → ∀ d ∈ (written ++ '\x22' :: rest).head?, ¬ Escapable d := by
        rw [head?_append_quote]
        exact alone
      have first := (argumentItem_result_eq_some_iff (s := c :: (written ++ '\x22' :: rest))).mpr
        (.inr ⟨rfl, notQuote, behind⟩)
      rw [List.cons_append, many_result_of_some first (by simp), ih]
      rfl

theorem doubleQuoted_reads {s rest : List Char} {value : String} :
    (doubleQuoted s).result = some (value, rest) ↔ Argument s value rest := by
  have same : (doubleQuoted s).result =
      (between '\x22' (escaped <|> charOtherThan '\x22') s).result := rfl
  rw [same, between_result_eq_some_iff]
  constructor
  · rintro ⟨tail, chars, rfl, inside, rfl⟩
    obtain ⟨written, rfl, body⟩ := many_argumentItem_sound inside
    exact .intro body
  · intro h
    cases h with
    | intro body => exact ⟨_, _, rfl, many_argumentItem_complete body rest, rfl⟩

theorem sound_doubleQuoted : Sound doubleQuoted Argument := fun _ _ _ => doubleQuoted_reads.mp

/-! ### Chains -/

/-- At least one item: a repetition that is not empty. -/
theorem many1_result_eq_some_iff {p : Parser α} (progress : Progresses p) {s rest : List Char}
    {as : List α} :
    (many1 p s).result = some (as, rest) ↔ as ≠ [] ∧ (many p s).result = some (as, rest) := by
  rw [many1_result]
  cases first : (p s).result with
  | none =>
      rw [many_result_of_none first]
      constructor
      · rintro ⟨⟩
      · rintro ⟨nonempty, same⟩
        exact absurd (Prod.mk.inj (Option.some.inj same)).1.symm nonempty
  | some found =>
      obtain ⟨a, s₁⟩ := found
      rw [many_result_of_some first (progress s a s₁ first), Option.bind_some]
      constructor
      · intro h
        obtain ⟨⟨others, tail⟩, -, same⟩ := Option.map_eq_some_iff.mp h
        refine ⟨?_, h⟩
        rw [← (Prod.mk.inj same).1]
        exact List.cons_ne_nil _ _
      · exact And.right

/-- A repetition of items behind links finds only chains. -/
theorem Sound.many1_chain {β : Type} {p : Parser β} {link : Reading Unit} {item : Reading β}
    (sound : Sound p (Behind link item)) (shrinks : Shrinks (Behind link item)) :
    Sound (many1 p) (Chain link item) := by
  intro s bs rest h
  have progress := sound.progresses shrinks
  obtain ⟨nonempty, h⟩ := (many1_result_eq_some_iff progress).mp h
  have found : (bs = [] ∧ rest = s) ∨ Chain link item s bs rest := by
    apply many_induction progress
      (motive := fun s bs rest => (bs = [] ∧ rest = s) ∨ Chain link item s bs rest) ?_ ?_ h
    · intro s _
      exact .inl ⟨rfl, rfl⟩
    · intro s s₁ rest b bs first ih
      obtain ⟨t, linked, reading⟩ := sound s b s₁ first
      rcases ih with ⟨rfl, rfl⟩ | others
      · exact .inr (.one linked reading)
      · exact .inr (.more linked reading others)
  exact found.resolve_left fun empty => nonempty empty.1

/-- A repetition of items behind links finds a given chain, if its items are found in all texts up to
the size of this one and no further item stands behind the chain. What must not stand behind an item
is `follow`, which a link satisfies. -/
theorem many1_chain_complete {β : Type} {p : Parser β} {link : Reading Unit} {item : Reading β}
    (follow : List Char → Prop) (bound : Nat) (sound : Sound p (Behind link item))
    (shrinks : Shrinks (Behind link item)) (again : ∀ s s₁, link s () s₁ → follow s)
    (complete : ∀ s b rest, s.length ≤ bound → Behind link item s b rest → follow rest →
      (p (skipBlanks s)).result = some (b, skipBlanks rest))
    {s rest : List Char} {bs : List β} (chain : Chain link item s bs rest)
    (size : s.length ≤ bound) (behind : follow rest)
    (stop : (p (skipBlanks rest)).result = none) :
    (many1 p (skipBlanks s)).result = some (bs, skipBlanks rest) := by
  have progress := sound.progresses shrinks
  rw [many1_result_eq_some_iff progress]
  induction chain with
  | @one s s₁ rest b linked reading =>
      have first := complete s b rest size ⟨s₁, linked, reading⟩ behind
      constructor
      · exact List.cons_ne_nil _ _
      · rw [many_result_of_some first (progress _ _ _ first), many_result_of_none stop]
        rfl
  | @more s s₁ s₂ rest b bs linked reading others ih =>
      have shorter : s₂.length < s.length := shrinks _ _ _ ⟨s₁, linked, reading⟩
      have next : follow s₂ := by
        cases others with
        | one linked' _ => exact again _ _ linked'
        | more linked' _ _ => exact again _ _ linked'
      have first := complete s b s₂ size ⟨s₁, linked, reading⟩ next
      have others := ih (Nat.le_trans (Nat.le_of_lt shorter) size) behind stop
      constructor
      · exact List.cons_ne_nil _ _
      · rw [many_result_of_some first (progress _ _ _ first), others.2]
        rfl

end Parser

end RecordQuery
