import RecordQuery.Query.Parser

/-!
# What parsers accept

The results of the combinators, their notes aside. Each combinator has one equation or equivalence
for its result, and the proofs about dialects use these in the place of the definitions.
-/

namespace RecordQuery

namespace Parser

variable {α β : Type}

/-- A sequence goes on from the value and the rest of its first part. -/
theorem bind_result (p : Parser α) (f : α → Parser β) (s : List Char) :
    ((p >>= f) s).result = (p s).result.bind fun found => (f found.1 found.2).result := by
  rw [bind_eq]
  unfold andThen
  rcases p s with ⟨_ | found, notes⟩ <;> rfl

theorem pure_result (a : α) (s : List Char) :
    ((pure a : Parser α) s).result = some (a, s) := rfl

theorem orElse_result (p q : Parser α) (s : List Char) :
    ((p <|> q) s).result = (p s).result.or (q s).result :=
  otherwise_result p q s

theorem bind_result_eq_some_iff {p : Parser α} {f : α → Parser β} {s : List Char}
    {found : β × List Char} :
    ((p >>= f) s).result = some found ↔
      ∃ a rest, (p s).result = some (a, rest) ∧ (f a rest).result = some found :=
  andThen_result_eq_some_iff

/-- An optional item never refuses a text. -/
theorem optional_result (p : Parser α) (s : List Char) :
    (optional p s).result =
      some ((p s).result.elim (none, s) fun found => (some found.1, found.2)) := by
  rw [optional, orElse_result]
  change ((p >>= fun a => pure (some a)) s).result.or (some (none, s)) = _
  rw [bind_result]
  rcases (p s).result with _ | found <;> rfl

/-- A repetition takes one item and goes on, or stops where there is none. -/
theorem many_result (p : Parser α) (s : List Char) :
    (many p s).result =
      match (p s).result with
      | none => some ([], s)
      | some (a, rest) =>
        if rest.length < s.length then
          (many p rest).result.map fun found => (a :: found.1, found.2)
        else some ([a], rest) := by
  rw [many]
  rcases p s with ⟨_ | ⟨a, rest⟩, notes⟩
  · rfl
  · by_cases shorter : rest.length < s.length
    · simp only [if_pos shorter]
    · simp only [if_neg shorter]

/-- The equation of a sequence, for one that begins with a repetition. -/
theorem many_bind_result (p : Parser α) (f : List α → Parser β) (s : List Char) :
    (Bind.bind (m := Parser) (many p) f s).result =
      (many p s).result.bind fun found => (f found.1 found.2).result :=
  bind_result (many p) f s

theorem many_bind_result_eq_some_iff {p : Parser α} {f : List α → Parser β} {s : List Char}
    {found : β × List Char} :
    (Bind.bind (m := Parser) (many p) f s).result = some found ↔
      ∃ as rest, (many p s).result = some (as, rest) ∧ (f as rest).result = some found :=
  andThen_result_eq_some_iff

theorem many1_result (p : Parser α) (s : List Char) :
    (many1 p s).result =
      (p s).result.bind fun first =>
        (many p first.2).result.map fun others => (first.1 :: others.1, others.2) := by
  rw [many1, bind_result]
  apply congrArg (Option.bind _)
  funext first
  rw [many_bind_result]
  rcases (many p first.2).result with _ | others <;> rfl

/-- A repetition stops at a place where its item is refused. -/
theorem many_result_of_none {p : Parser α} {s : List Char} (h : (p s).result = none) :
    (many p s).result = some ([], s) := by
  rw [many_result, h]

/-- A repetition goes on behind an item that has taken something. -/
theorem many_result_of_some {p : Parser α} {s rest : List Char} {a : α}
    (h : (p s).result = some (a, rest)) (shorter : rest.length < s.length) :
    (many p s).result = (many p rest).result.map fun found => (a :: found.1, found.2) := by
  rw [many_result, h]
  simp only [if_pos shorter]

/-- A repetition refuses nothing, by induction on the size of the text. -/
theorem many_result_ne_none (p : Parser α) (s : List Char) : (many p s).result ≠ none := by
  intro refused
  induction size : s.length using Nat.strongRecOn generalizing s with
  | ind n ih =>
      cases start : (p s).result with
      | none =>
          rw [many_result_of_none start] at refused
          cases refused
      | some found =>
          obtain ⟨a, rest⟩ := found
          by_cases shorter : rest.length < s.length
          · rw [many_result_of_some start shorter, Option.map_eq_none_iff] at refused
            exact ih rest.length (size ▸ shorter) rest refused rfl
          · rw [many_result, start] at refused
            simp only [if_neg shorter] at refused
            cases refused

/-- What leads from a text to the rest behind an item leads to the rest behind a repetition, by induction on
the size of the text. -/
theorem many_rest_induction {p : Parser α} {motive : List Char → List Char → Prop}
    (refl : ∀ s, motive s s)
    (step : ∀ s a t rest, (p s).result = some (a, t) → motive t rest → motive s rest)
    {s rest : List Char} {as : List α} (found : (many p s).result = some (as, rest)) :
    motive s rest := by
  induction size : s.length using Nat.strongRecOn generalizing s as with
  | ind n ih =>
      cases start : (p s).result with
      | none =>
          rw [many_result_of_none start] at found
          obtain ⟨-, rfl⟩ := Prod.mk.inj (Option.some.inj found)
          exact refl s
      | some pair =>
          obtain ⟨a, t⟩ := pair
          by_cases shorter : t.length < s.length
          · rw [many_result_of_some start shorter] at found
            obtain ⟨⟨others, tail⟩, more, same⟩ := Option.map_eq_some_iff.mp found
            obtain ⟨-, rfl⟩ := Prod.mk.inj same
            exact step s a t tail start (ih t.length (size ▸ shorter) more rfl)
          · rw [many_result, start] at found
            simp only [if_neg shorter] at found
            obtain ⟨-, rfl⟩ := Prod.mk.inj (Option.some.inj found)
            exact step s a t t start (refl t)

/-- A repetition of characters of one class takes the longest run of them. -/
theorem many_charWhere_result (accepts : Char → Bool) (s : List Char) :
    (many (charWhere accepts) s).result = some (s.takeWhile accepts, s.dropWhile accepts) := by
  induction s with
  | nil => exact many_result_of_none rfl
  | cons c rest ih =>
      by_cases accepted : accepts c = true
      · have first : (charWhere accepts (c :: rest)).result = some (c, rest) := by
          simp only [charWhere, if_pos accepted]
        rw [many_result_of_some first (by simp), ih]
        simp [accepted]
      · have first : (charWhere accepts (c :: rest)).result = none := by
          simp only [charWhere, if_neg accepted, refuse]
        rw [many_result_of_none first]
        simp [accepted]

/-- At least one character of a class: the longest run, unless that is empty. -/
theorem many1_charWhere_result (accepts : Char → Bool) (s : List Char) :
    (many1 (charWhere accepts) s).result =
      if s.takeWhile accepts = [] then none
      else some (s.takeWhile accepts, s.dropWhile accepts) := by
  rw [many1_result]
  cases s with
  | nil => simp [charWhere, refuse]
  | cons c tail =>
      by_cases accepted : accepts c = true
      · simp [charWhere, accepted, many_charWhere_result]
      · simp [charWhere, accepted, refuse]

theorem charWhere_result_eq_some_iff {accepts : Char → Bool} {s rest : List Char} {c : Char} :
    (charWhere accepts s).result = some (c, rest) ↔ s = c :: rest ∧ accepts c = true := by
  cases s with
  | nil => simp [charWhere, refuse]
  | cons d tail =>
      by_cases accepted : accepts d = true
      · simp only [charWhere, if_pos accepted, Option.some.injEq, Prod.mk.injEq, List.cons.injEq]
        constructor
        · rintro ⟨rfl, rfl⟩
          exact ⟨⟨rfl, rfl⟩, accepted⟩
        · exact And.left
      · simp only [charWhere, if_neg accepted, refuse, reduceCtorEq, List.cons.injEq, false_iff]
        rintro ⟨⟨rfl, -⟩, h⟩
        exact accepted h

theorem oneOf_result_eq_some_iff {allowed : List Char} {s rest : List Char} {c : Char} :
    (oneOf allowed s).result = some (c, rest) ↔ s = c :: rest ∧ c ∈ allowed := by
  cases s with
  | nil => simp [oneOf, refuse]
  | cons d tail =>
      by_cases mem : d ∈ allowed
      · simp only [oneOf, if_pos mem, Option.some.injEq, Prod.mk.injEq, List.cons.injEq]
        constructor
        · rintro ⟨rfl, rfl⟩
          exact ⟨⟨rfl, rfl⟩, mem⟩
        · exact And.left
      · simp only [oneOf, if_neg mem, refuse, reduceCtorEq, List.cons.injEq, false_iff]
        rintro ⟨⟨rfl, -⟩, h⟩
        exact mem h

theorem char_result_eq_some_iff {c d : Char} {s rest : List Char} :
    (char c s).result = some (d, rest) ↔ s = c :: rest ∧ d = c := by
  rw [char, oneOf_result_eq_some_iff, List.mem_singleton]
  constructor
  · rintro ⟨rfl, rfl⟩
    exact ⟨rfl, rfl⟩
  · rintro ⟨rfl, rfl⟩
    exact ⟨rfl, rfl⟩

theorem charOtherThan_result_eq_some_iff {refused c : Char} {s rest : List Char} :
    (charOtherThan refused s).result = some (c, rest) ↔ s = c :: rest ∧ c ≠ refused := by
  cases s with
  | nil => simp [charOtherThan, refuse]
  | cons d tail =>
      by_cases same : d = refused
      · simp only [charOtherThan, if_pos same, refuse, reduceCtorEq, List.cons.injEq, false_iff]
        rintro ⟨⟨rfl, -⟩, h⟩
        exact h same
      · simp only [charOtherThan, if_neg same, Option.some.injEq, Prod.mk.injEq, List.cons.injEq]
        constructor
        · rintro ⟨rfl, rfl⟩
          exact ⟨⟨rfl, rfl⟩, same⟩
        · exact And.left

theorem chars_result_eq_some_iff {cs s rest : List Char} :
    (chars cs s).result = some ((), rest) ↔ s = cs ++ rest := by
  induction cs generalizing s with
  | nil => simp [chars, succeed]
  | cons c cs ih =>
      simp only [chars, bind_result_eq_some_iff, char_result_eq_some_iff, ih]
      constructor
      · rintro ⟨d, tail, ⟨rfl, -⟩, rfl⟩
        rfl
      · rintro rfl
        exact ⟨c, cs ++ rest, ⟨rfl, rfl⟩, rfl⟩

theorem endOfInput_result_eq_some_iff {s rest : List Char} :
    (endOfInput s).result = some ((), rest) ↔ s = [] ∧ rest = [] := by
  cases s with
  | nil => simp [endOfInput, eq_comm]
  | cons c tail => simp [endOfInput, refuse]

/-- A keyword is spelled by the longest run of letters. -/
theorem word_result_eq_some_iff {k : Keyword} {s rest : List Char} :
    (word k s).result = some ((), rest) ↔
      k.spelledBy (s.takeWhile isAlphabetic) = true ∧ rest = s.dropWhile isAlphabetic := by
  have run := many1_charWhere_result isAlphabetic s
  unfold word
  rcases found : many1 (charWhere isAlphabetic) s with ⟨_ | ⟨letters, tail⟩, notes⟩
  all_goals rw [found] at run
  · by_cases empty : s.takeWhile isAlphabetic = []
    · cases k <;> simp [empty, Keyword.spelledBy, Keyword.text]
    · rw [if_neg empty] at run
      cases run
  · by_cases empty : s.takeWhile isAlphabetic = []
    · rw [if_pos empty] at run
      cases run
    · rw [if_neg empty] at run
      obtain ⟨rfl, rfl⟩ := Prod.mk.inj (Option.some.inj run)
      by_cases spelled : k.spelledBy (s.takeWhile isAlphabetic) = true
      · simp [spelled, eq_comm]
      · simp [spelled, refuse]

/-- A padded parser works on the text behind the blanks and leaves the blanks behind its item
aside. -/
theorem padded_result (p : Parser α) (s : List Char) :
    (padded p s).result =
      (p (skipBlanks s)).result.map fun found => (found.1, skipBlanks found.2) := by
  rw [padded, bind_result]
  change ((p >>= fun a => blanks >>= fun _ => pure a) (skipBlanks s)).result = _
  rw [bind_result]
  rcases (p (skipBlanks s)).result with _ | found <;> rfl

theorem padded_result_eq_some_iff {p : Parser α} {s rest : List Char} {a : α} :
    (padded p s).result = some (a, rest) ↔
      ∃ tail, (p (skipBlanks s)).result = some (a, tail) ∧ rest = skipBlanks tail := by
  rw [padded_result]
  constructor
  · intro h
    obtain ⟨⟨b, tail⟩, first, same⟩ := Option.map_eq_some_iff.mp h
    obtain ⟨rfl, rfl⟩ := Prod.mk.inj same
    exact ⟨tail, first, rfl⟩
  · rintro ⟨tail, first, rfl⟩
    rw [first]
    rfl

/-- The parser on texts shorter than the given one, which is how a recursive parser sees itself. -/
def within (s : List Char) (p : Parser α) : Parser α := fun t =>
  if t.length < s.length then p t else ⟨none, []⟩

theorem recursive_eq (body : Parser α → Parser α) (s : List Char) :
    recursive body s = body (within s (recursive body)) s := by
  rw [recursive]
  rfl

theorem within_recursive_of_lt {body : Parser α → Parser α} {s t : List Char}
    (shorter : t.length < s.length) : within s (recursive body) t = recursive body t :=
  if_pos shorter

theorem within_recursive_of_not_lt {body : Parser α → Parser α} {s t : List Char}
    (longer : ¬t.length < s.length) : within s (recursive body) t = ⟨none, []⟩ :=
  if_neg longer

/-- What holds of a parser that describes itself follows from its description, by induction on the size of
the text. Inside itself the parser may also refuse a text without a note. -/
theorem recursive_induction {body : Parser α → Parser α} {motive : List Char → Outcome α → Prop}
    (refused : ∀ s, motive s ⟨none, []⟩)
    (step : ∀ p : Parser α, (∀ s, motive s (p s)) → ∀ s, motive s (body p s)) (s : List Char) :
    motive s (recursive body s) := by
  induction size : s.length using Nat.strongRecOn generalizing s with
  | ind n ih =>
      rw [recursive_eq]
      apply step
      intro t
      by_cases shorter : t.length < s.length
      · rw [within_recursive_of_lt shorter]
        exact ih t.length (size ▸ shorter) t rfl
      · rw [within_recursive_of_not_lt shorter]
        exact refused t

theorem within_result_of_lt {s t : List Char} {p : Parser α} (shorter : t.length < s.length) :
    (within s p t).result = (p t).result := by
  rw [within, if_pos shorter]

theorem within_result_eq_some_iff {s t : List Char} {p : Parser α} {found : α × List Char} :
    (within s p t).result = some found ↔ t.length < s.length ∧ (p t).result = some found := by
  unfold within
  by_cases shorter : t.length < s.length
  · simp [shorter]
  · simp [shorter]

/-- Reading a whole text succeeds exactly where the parser does. -/
theorem readAll_eq_ok_iff {p : Parser α} {text : List Char} {a : α} :
    p.readAll text = .ok a ↔ ∃ rest, (p text).result = some (a, rest) := by
  unfold readAll
  rcases p text with ⟨_ | ⟨b, rest⟩, notes⟩ <;> simp

end Parser

end RecordQuery
