import RecordQuery.Query.SyntaxError
import RecordQuery.Proofs.Unicode.Classes

/-!
# The grammar of query texts

A construct of a dialect is given by its readings: a text, the value that the beginning of the text
stands for, and the text that is left behind it. The readings do not say how they are found. A run of
blanks may be split between two constructs at any place, and no reading is preferred to another one;
only names, keywords and escapes look at the character behind them.
-/

namespace RecordQuery

namespace Grammar

/-- The readings of a construct: a text, a value, and the text left behind the construct. -/
abbrev Reading (α : Type) := List Char → α → List Char → Prop

variable {α : Type}

/-- Any number of blanks. -/
def Blanks (s rest : List Char) : Prop :=
  ∃ run : List Char, (∀ c ∈ run, isBlank c = true) ∧ s = run ++ rest

/-- A construct with blanks allowed before and after it. -/
inductive Padded (construct : Reading α) : Reading α
  | intro {s s₁ s₂ rest a} (before : Blanks s s₁) (inside : construct s₁ a s₂)
      (after : Blanks s₂ rest) : Padded construct s a rest

/-- The given characters. -/
inductive Letters (cs : List Char) : Reading Unit
  | intro {rest} : Letters cs (cs ++ rest) () rest

/-- One given character. -/
abbrev Sign (c : Char) : Reading Unit := Letters [c]

/-- A maximal run of characters of one class: it is not empty and no character of the class stands
behind it. -/
inductive Run (accepts : Char → Bool) : Reading (List Char)
  | intro {run rest} (some : run ≠ []) (inside : ∀ c ∈ run, accepts c = true)
      (behind : ∀ c ∈ rest.head?, accepts c = false) : Run accepts (run ++ rest) run rest

/-- An item behind a link. -/
def Behind (link : Reading Unit) (item : Reading α) : Reading α := fun s a rest =>
  ∃ t, link s () t ∧ item t a rest

/-- One or more items, each behind a link. -/
inductive Chain (link : Reading Unit) (item : Reading α) : Reading (List α)
  | one {s s₁ rest a} (first : link s () s₁) (last : item s₁ a rest) :
      Chain link item s [a] rest
  | more {s s₁ s₂ rest a as} (first : link s () s₁) (next : item s₁ a s₂)
      (others : Chain link item s₂ as rest) : Chain link item s (a :: as) rest

/-- A keyword: a maximal run of letters that is the word in capital or small ASCII letters. -/
inductive Word (k : Keyword) : Reading Unit
  | intro {s letters rest} (run : Run isAlphabetic s letters rest)
      (spelled : letters.map Char.toUpper = k.text.toList) : Word k s () rest

/-- What may stand between two delimiters, and the characters that it stands for: a delimiter written
twice stands for one, and any other character for itself. -/
inductive Doubling (delimiter : Char) : List Char → List Char → Prop
  | nil : Doubling delimiter [] []
  | plain {c written value} (other : c ≠ delimiter) (more : Doubling delimiter written value) :
      Doubling delimiter (c :: written) (c :: value)
  | doubled {written value} (more : Doubling delimiter written value) :
      Doubling delimiter (delimiter :: delimiter :: written) (delimiter :: value)

/-- A string between two delimiters. -/
inductive Quoted (delimiter : Char) : Reading String
  | intro {written value rest} (body : Doubling delimiter written value) :
      Quoted delimiter (delimiter :: (written ++ delimiter :: rest)) (String.ofList value) rest

/-- A literal of the statement dialect. -/
abbrev Literal : Reading String := Quoted '\x27'

/-- A name: a maximal run of letters, digits and underscores, or a string between double quotes or
backticks. -/
inductive Name : Reading String
  | bare {s run rest} (chars : Run isNameChar s run rest) : Name s (String.ofList run) rest
  | doubleQuoted {s name rest} (quoted : Quoted '\x22' s name rest) : Name s name rest
  | backticks {s name rest} (quoted : Quoted '\x60' s name rest) : Name s name rest

/-- Whether a character can be escaped by a backslash. -/
def Escapable (c : Char) : Prop := c = '\x22' ∨ c = '\\'

/-- What may stand between the double quotes of a string argument, and the characters that it stands
for. A backslash in front of a double quote or a backslash escapes it. Any other character stands for
itself, a backslash only if the character behind it, which may be the closing quote, cannot be
escaped. -/
inductive Escaping : List Char → List Char → Prop
  | nil : Escaping [] []
  | escaped {c written value} (can : Escapable c) (more : Escaping written value) :
      Escaping ('\\' :: c :: written) (c :: value)
  | plain {c written value} (notQuote : c ≠ '\x22')
      (alone : c = '\\' → ∀ d ∈ (written ++ ['\x22']).head?, ¬ Escapable d)
      (more : Escaping written value) : Escaping (c :: written) (c :: value)

/-- A string argument of a call. -/
inductive Argument : Reading String
  | intro {written value rest} (body : Escaping written value) :
      Argument ('\x22' :: (written ++ '\x22' :: rest)) (String.ofList value) rest

/-! ### Blanks and runs -/

theorem Blanks.refl (s : List Char) : Blanks s s := ⟨[], by simp, rfl⟩

theorem Blanks.trans {s t u : List Char} (h : Blanks s t) (h' : Blanks t u) : Blanks s u := by
  obtain ⟨run, blank, rfl⟩ := h
  obtain ⟨run', blank', rfl⟩ := h'
  refine ⟨run ++ run', ?_, by simp⟩
  intro c mem
  rcases List.mem_append.mp mem with mem | mem
  · exact blank c mem
  · exact blank' c mem

/-- What is left behind all leading blanks. -/
theorem Blanks.skip (s : List Char) : Blanks s (skipBlanks s) := by
  refine ⟨s.takeWhile isBlank, ?_, List.takeWhile_append_dropWhile.symm⟩
  intro c mem
  exact List.all_eq_true.mp List.all_takeWhile c mem

theorem Blanks.skipBlanks_eq {s rest : List Char} (h : Blanks s rest) :
    skipBlanks s = skipBlanks rest := by
  obtain ⟨run, blank, rfl⟩ := h
  exact List.dropWhile_append_of_pos blank

theorem Blanks.length_le {s rest : List Char} (h : Blanks s rest) : rest.length ≤ s.length := by
  obtain ⟨run, -, rfl⟩ := h
  simp

/-- No blanks are passed over in front of a character that is none. -/
theorem Blanks.eq_of_head? {s rest : List Char} {c : Char} (h : Blanks s rest)
    (head : s.head? = some c) (solid : isBlank c = false) : rest = s := by
  obtain ⟨_ | ⟨d, run⟩, blank, rfl⟩ := h
  · rfl
  · have same : d = c := by simpa using head
    have blankD := blank d (by simp)
    rw [same, solid] at blankD
    cases blankD

theorem skipBlanks_idem (s : List Char) : skipBlanks (skipBlanks s) = skipBlanks s :=
  (Blanks.skip s).skipBlanks_eq.symm

theorem skipBlanks_of_head? {s : List Char} {c : Char} (head : s.head? = some c)
    (solid : isBlank c = false) : skipBlanks s = s :=
  (Blanks.skip s).eq_of_head? head solid

/-- A padded construct takes in blanks in front of it. -/
theorem Padded.after_blanks {construct : Reading α} {s t rest : List Char} {a : α}
    (blanks : Blanks s t) (h : Padded construct t a rest) : Padded construct s a rest := by
  cases h with
  | intro before inside after => exact .intro (blanks.trans before) inside after

/-- A padded construct takes in blanks behind it. -/
theorem Padded.before_blanks {construct : Reading α} {s t rest : List Char} {a : α}
    (h : Padded construct s a t) (blanks : Blanks t rest) : Padded construct s a rest := by
  cases h with
  | intro before inside after => exact .intro before inside (after.trans blanks)

/-- A construct takes in some of the text. -/
def Shrinks (construct : Reading α) : Prop :=
  ∀ s a rest, construct s a rest → rest.length < s.length

/-- A construct does not begin with a blank. -/
def Solid (construct : Reading α) : Prop :=
  ∀ s a rest, construct s a rest → ∃ c, s.head? = some c ∧ isBlank c = false

/-- A padded construct begins with a blank or as the construct does. -/
theorem Padded.head?_ne {construct : Reading α} {c : Char} (notBlank : isBlank c = false)
    (never : ∀ s a rest, construct s a rest → s.head? ≠ some c) {s rest : List Char} {a : α}
    (h : Padded construct s a rest) : s.head? ≠ some c := by
  intro head
  cases h with
  | intro before inside after =>
      rw [before.eq_of_head? head notBlank] at inside
      exact never s a _ inside head

/-- Behind its leading blanks a padded construct is the construct. -/
theorem Padded.exists_inside {construct : Reading α} (solid : Solid construct)
    {s t rest : List Char} {a : α} {c : Char} (h : Padded construct s a rest)
    (blanks : Blanks s t) (head : t.head? = some c) (notBlank : isBlank c = false) :
    ∃ u, construct t a u := by
  cases h with
  | intro before inside after =>
      obtain ⟨d, head', notBlank'⟩ := solid _ _ _ inside
      have same := before.skipBlanks_eq.symm.trans blanks.skipBlanks_eq
      rw [skipBlanks_of_head? head' notBlank', skipBlanks_of_head? head notBlank] at same
      exact ⟨_, same ▸ inside⟩

/-- What a padded construct leaves is shorter even than the text behind the leading blanks. -/
theorem Padded.length_lt {construct : Reading α} (shrinks : Shrinks construct)
    (solid : Solid construct) {s rest : List Char} {a : α} (h : Padded construct s a rest) :
    rest.length < (skipBlanks s).length := by
  cases h with
  | intro before inside after =>
      obtain ⟨c, head, notBlank⟩ := solid _ _ _ inside
      rw [before.skipBlanks_eq, skipBlanks_of_head? head notBlank]
      have := shrinks _ _ _ inside
      have := after.length_le
      omega

theorem Shrinks.padded {construct : Reading α} (h : Shrinks construct) :
    Shrinks (Padded construct) := by
  intro s a rest reading
  cases reading with
  | intro before inside after =>
      have := before.length_le
      have := h _ _ _ inside
      have := after.length_le
      omega

theorem Shrinks.behind {link : Reading Unit} {item : Reading α} (h : Shrinks link)
    (h' : Shrinks item) : Shrinks (Behind link item) := by
  intro s a rest reading
  obtain ⟨t, linked, inside⟩ := reading
  exact Nat.lt_trans (h' _ _ _ inside) (h _ _ _ linked)

theorem shrinks_letters {cs : List Char} (some : cs ≠ []) : Shrinks (Letters cs) := by
  intro s a rest reading
  cases reading with
  | intro =>
      have := List.length_pos_iff.mpr some
      simp only [List.length_append]
      omega

theorem shrinks_sign (c : Char) : Shrinks (Sign c) := shrinks_letters (List.cons_ne_nil c [])

theorem solid_letters {c : Char} {cs : List Char} (h : isBlank c = false) :
    Solid (Letters (c :: cs)) := by
  intro s a rest reading
  cases reading with
  | intro => exact ⟨c, rfl, h⟩

theorem solid_sign {c : Char} (h : isBlank c = false) : Solid (Sign c) := solid_letters h

theorem Letters.head?_eq {c : Char} {cs s rest : List Char} (h : Letters (c :: cs) s () rest) :
    s.head? = some c := by
  cases h with
  | intro => rfl

/-- Given characters leave one text behind them. -/
theorem Letters.rest_eq {cs s rest rest' : List Char} (h : Letters cs s () rest)
    (h' : Letters cs s () rest') : rest = rest' := by
  cases h with
  | intro =>
      generalize start : cs ++ rest = s at h'
      cases h' with
      | intro => exact List.append_cancel_left start

theorem head?_ne_of_letters {c d : Char} {cs : List Char} (differ : c ≠ d) (s : List Char)
    (a : Unit) (rest : List Char) (h : Letters (c :: cs) s a rest) : s.head? ≠ some d := by
  cases h with
  | intro => exact fun head => differ (Option.some.inj head)

/-- A run is the longest one, and it is not empty. -/
theorem run_iff {accepts : Char → Bool} {s run rest : List Char} :
    Run accepts s run rest ↔
      run ≠ [] ∧ run = s.takeWhile accepts ∧ rest = s.dropWhile accepts := by
  constructor
  · intro h
    cases h with
    | intro nonempty inside behind =>
        have stops : rest.takeWhile accepts = [] ∧ rest.dropWhile accepts = rest := by
          cases rest with
          | nil => simp
          | cons c tail =>
              have refused : accepts c = false := behind c (by simp)
              simp [refused]
        rw [List.takeWhile_append_of_pos inside, List.dropWhile_append_of_pos inside, stops.1,
          stops.2]
        exact ⟨nonempty, by simp, rfl⟩
  · rintro ⟨nonempty, rfl, rfl⟩
    have whole : s = s.takeWhile accepts ++ s.dropWhile accepts :=
      List.takeWhile_append_dropWhile.symm
    have inside : ∀ c ∈ s.takeWhile accepts, accepts c = true :=
      fun c mem => List.all_eq_true.mp List.all_takeWhile c mem
    have behind : ∀ c ∈ (s.dropWhile accepts).head?, accepts c = false := by
      intro c mem
      have := List.head?_dropWhile_not accepts s
      rw [mem] at this
      exact this
    have h := Run.intro nonempty inside behind
    rwa [← whole] at h

/-- A run begins with a character of its class. -/
theorem Run.exists_head {accepts : Char → Bool} {s run rest : List Char}
    (h : Run accepts s run rest) : ∃ c, s.head? = some c ∧ accepts c = true := by
  cases h with
  | @intro run rest nonempty inside behind =>
      cases run with
      | nil => exact absurd rfl nonempty
      | cons c tail => exact ⟨c, rfl, inside c (by simp)⟩

theorem Run.length_lt {accepts : Char → Bool} {s run rest : List Char}
    (h : Run accepts s run rest) : rest.length < s.length := by
  cases h with
  | @intro run rest nonempty inside behind =>
      have := List.length_pos_iff.mpr nonempty
      simp only [List.length_append]
      omega

/-- A keyword begins with a letter. -/
theorem Word.exists_head {k : Keyword} {s rest : List Char} (h : Word k s () rest) :
    ∃ c, s.head? = some c ∧ isAlphabetic c = true := by
  cases h with
  | intro run spelled => exact run.exists_head

/-- A text begins with one keyword at most. -/
theorem Word.eq_keyword {k other : Keyword} {s rest rest' : List Char} (h : Word k s () rest)
    (h' : Word other s () rest') : k = other := by
  cases h with
  | intro run spelled =>
      cases h' with
      | intro run' spelled' =>
          obtain ⟨-, rfl, rfl⟩ := run_iff.mp run
          obtain ⟨-, rfl, rfl⟩ := run_iff.mp run'
          have same : k.text.toList = other.text.toList := spelled.symm.trans spelled'
          cases k <;> cases other <;> first | rfl | exact absurd same (by decide)

theorem head?_ne_of_word {k : Keyword} {d : Char} (noLetter : isAlphabetic d = false)
    (s : List Char) (a : Unit) (rest : List Char) (h : Word k s a rest) : s.head? ≠ some d := by
  intro head
  obtain ⟨c, head', letter⟩ := h.exists_head
  rw [head] at head'
  rw [← Option.some.inj head', noLetter] at letter
  cases letter

theorem shrinks_word {k : Keyword} : Shrinks (Word k) := by
  intro s u rest h
  cases h with
  | intro run spelled => exact run.length_lt

theorem solid_word {k : Keyword} : Solid (Word k) := by
  intro s u rest h
  obtain ⟨c, head, letter⟩ := h.exists_head
  exact ⟨c, head, isBlank_eq_false_of_isAlphabetic letter⟩

end Grammar

end RecordQuery
