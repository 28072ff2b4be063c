import RecordQuery.Proofs.Query.Notes
import RecordQuery.Proofs.Query.Expressions

/-!
# Where tokens and expressions leave notes

All notes of an expression lie within its text. The notes of a token lie in front of what follows it:
no token looks further than at the character that ends it.
-/

namespace RecordQuery

namespace Parser

open Grammar

variable {α : Type}

/-! ### Parsers that keep within their text -/

theorem confined_charWhere (accepts : Char → Bool) : Confined (charWhere accepts) :=
  (readsOne_charWhere accepts).confined

theorem confined_oneOf (allowed : List Char) : Confined (oneOf allowed) :=
  (readsOne_oneOf allowed).confined

theorem confined_char (c : Char) : Confined (char c) := confined_oneOf [c]

theorem confined_charOtherThan (refused : Char) : Confined (charOtherThan refused) :=
  (readsOne_charOtherThan refused).confined

theorem confined_endOfInput : Confined endOfInput := by
  apply stopsAtStart_endOfInput.confined
  intro s u rest found
  obtain ⟨rfl, rfl⟩ := endOfInput_result_eq_some_iff.mp found
  exact Nat.le_refl _

/-- The notes of a keyword stand where the word begins or where its letters stop. -/
theorem remaining_of_mem_word {k : Keyword} {s : List Char} {note : Note}
    (mem : note ∈ (word k s).notes) :
    note.remaining = s.length ∨
      ∃ other ∈ (many1 (charWhere isAlphabetic) s).notes, other.remaining = note.remaining := by
  unfold word at mem
  split at mem
  · rename_i notes run
    rw [run]
    exact .inr (exists_mem_of_summary mem)
  · rename_i letters rest notes run
    split at mem
    · rw [run]
      exact .inr (exists_mem_of_summary mem)
    · rw [List.mem_singleton.mp mem]
      exact .inl rfl

theorem confined_word (k : Keyword) : Confined (word k) := by
  have letters : Confined (many1 (charWhere isAlphabetic)) := (confined_charWhere _).many1
  intro s
  constructor
  · intro u rest found
    obtain ⟨-, rfl⟩ := word_result_eq_some_iff.mp found
    exact (List.dropWhile_sublist _).length_le
  · intro note mem
    rcases remaining_of_mem_word mem with place | ⟨other, own, place⟩
    · exact Nat.le_of_eq place
    · exact place ▸ (letters s).note_le other own

theorem confined_keyword (k : Keyword) : Confined (keyword k) := (confined_word k).padded

theorem confined_doubled (delimiter : Char) : Confined (doubled delimiter) :=
  (confined_char delimiter).bind fun _ => confined_char delimiter

/-- Items between delimiters, as names and literals have them. -/
theorem confined_between {item : Parser Char} (delimiter : Char) (inside : Confined item) :
    Confined (between delimiter item) :=
  (confined_char delimiter).bind fun _ => inside.many.bind fun _ =>
    (confined_char delimiter).bind fun _ => .pure _

theorem confined_delimitedName (delimiter : Char) : Confined (delimitedName delimiter) :=
  confined_between delimiter ((confined_doubled delimiter).orElse (confined_charWhere _))

theorem confined_fieldName : Confined fieldName := by
  have bare : Confined bareName :=
    ((confined_charWhere isNameChar).many1.bind fun _ => .pure _).label _
  exact (bare.orElse ((confined_delimitedName _).orElse (confined_delimitedName _))).label _

theorem confined_singleQuoted : Confined singleQuoted :=
  (confined_between '\x27'
    ((confined_doubled '\x27').orElse (confined_charOtherThan '\x27'))).label _

theorem confined_comparison : Confined comparison :=
  (confined_fieldName.padded.bind fun _ => (confined_char '=').padded.bind fun _ =>
    confined_singleQuoted.padded.bind fun _ => .pure _).label _

section Group

variable {operand : Parser Predicate}

theorem confined_furtherOperands (k : Keyword) (inside : Confined operand) :
    Confined (furtherOperands k operand) :=
  ((confined_keyword k).bind fun _ => inside).many1

theorem confined_group (inside : Confined operand) : Confined (group operand) := by
  have tail : Confined (groupTail operand) :=
    ((confined_furtherOperands .andWord inside).bind fun _ => .pure _).orElse
      ((confined_furtherOperands .orWord inside).bind fun _ => .pure _)
  exact ((confined_char '(').padded.bind fun _ => inside.bind fun _ => tail.optional.bind fun _ =>
    (confined_char ')').padded.bind fun _ => .pure _).label _

end Group

theorem confined_predicate : Confined predicate :=
  .recursive fun _ inside => (confined_group inside).orElse confined_comparison

theorem confined_barePredicate : Confined barePredicate :=
  confined_predicate.padded.bind fun _ => confined_endOfInput.bind fun _ => .pure _

/-! ### Parsers that leave notes where they refuse -/

theorem reports_between (delimiter : Char) (item : Parser Char) :
    Reports (between delimiter item) :=
  (reports_oneOf [delimiter]).bind fun _ => (Reports.many item).bind fun _ =>
    (reports_oneOf [delimiter]).bind fun _ => .pure _

theorem reports_fieldName : Reports fieldName :=
  (Reports.orElse _ (Reports.orElse _ (reports_between _ _))).label _

theorem reports_comparison : Reports comparison := by
  have literal : Reports singleQuoted := (reports_between _ _).label _
  exact (reports_fieldName.padded.bind fun _ => (reports_oneOf ['=']).padded.bind fun _ =>
    literal.padded.bind fun _ => .pure _).label _

theorem reports_predicate : Reports predicate := by
  intro s refused
  rw [predicate_eq] at refused ⊢
  exact Reports.orElse _ reports_comparison s refused

theorem reports_barePredicate : Reports barePredicate :=
  reports_predicate.padded.bind fun _ => reports_endOfInput.bind fun _ => .pure _

/-- Where no keyword stands, its letters leave a note or the word itself is one. -/
theorem reports_word (k : Keyword) : Reports (word k) := by
  intro s refused
  have letters : Reports (many1 (charWhere isAlphabetic)) := (readsOne_charWhere _).reports.many1
  unfold word at refused ⊢
  split at refused
  · rename_i notes run
    obtain ⟨note, mem⟩ := letters s (congrArg Outcome.result run)
    rw [run] at mem
    obtain ⟨e, found, -⟩ := SyntaxError.exists_furthest (List.ne_nil_of_mem mem)
    exact ⟨.raised e, by simp [summary, found]⟩
  · split at refused
    · cases refused
    · rename_i misspelt
      rw [if_neg misspelt]
      exact ⟨_, List.mem_singleton_self _⟩

theorem reports_keyword (k : Keyword) : Reports (keyword k) := (reports_word k).padded

theorem reports_statement : Reports statement :=
  (reports_keyword .selectWord).bind fun _ => (reports_oneOf ['*']).padded.bind fun _ =>
    (reports_keyword .fromWord).bind fun _ => (reports_fieldName.padded.label _).bind fun _ =>
      (reports_keyword .whereWord).bind fun _ => reports_predicate.bind fun _ =>
        reports_endOfInput.bind fun _ => .pure _

/-! ### Parsers that look ahead -/

/-- The parser leaves its notes at most `k` characters behind the place where it began. -/
def Peeks (k : Nat) (p : Parser α) : Prop :=
  ∀ s, ∀ note ∈ (p s).notes, s.length ≤ note.remaining + k

theorem StopsAtStart.peeks {p : Parser α} (stops : StopsAtStart p) (k : Nat) : Peeks k p := by
  intro s note mem
  rw [stops s note mem]
  exact Nat.le_add_right _ _

theorem Peeks.orElse {k : Nat} {p q : Parser α} (first : Peeks k p) (second : Peeks k q) :
    Peeks k (p <|> q) := by
  intro s note mem
  rcases mem_orElse_notes.mp mem with mem | ⟨-, mem⟩
  · exact first s note mem
  · exact second s note mem

theorem peeks_doubled (delimiter : Char) : Peeks 1 (doubled delimiter) := by
  have stops : StopsAtStart (char delimiter) := stopsAtStart_oneOf _
  intro s note mem
  rcases mem_bind_notes.mp mem with first | ⟨c, rest, start, second⟩
  · exact stops.peeks 1 s note first
  · obtain ⟨rfl, -⟩ := char_result_eq_some_iff.mp start
    exact Nat.succ_le_succ (stops.peeks 0 rest note second)

/-- The notes of a repetition are not far behind the place where it stops, by induction on the size of
the text. -/
theorem le_remaining_of_mem_many {k : Nat} {p : Parser α} (peeks : Peeks k p)
    (confined : Confined p) {s rest : List Char} {as : List α}
    (found : (many p s).result = some (as, rest)) :
    ∀ note ∈ (many p s).notes, rest.length ≤ note.remaining + k := by
  induction size : s.length using Nat.strongRecOn generalizing s as with
  | ind n ih =>
      intro note mem
      have shrunk : rest.length ≤ s.length := (confined.many s).rest_le as rest found
      rcases mem_many_notes.mp mem with mem | ⟨a, t, start, shorter, mem⟩
      · exact Nat.le_trans shrunk (peeks s note mem)
      · rw [many_result_of_some start shorter] at found
        obtain ⟨⟨others, tail⟩, more, same⟩ := Option.map_eq_some_iff.mp found
        obtain ⟨-, rfl⟩ := Prod.mk.inj same
        exact ih t.length (size ▸ shorter) more rfl note mem

/-- A repetition of characters of a class leaves its notes at the character that ends their run. -/
theorem remaining_of_mem_many_charWhere {accepts : Char → Bool} {s : List Char} :
    ∀ note ∈ (many (charWhere accepts) s).notes,
      note.remaining = (s.dropWhile accepts).length := by
  have stops := stopsAtStart_charWhere accepts
  induction s with
  | nil =>
      intro note mem
      rcases mem_many_notes.mp mem with first | ⟨c, rest, start, -⟩
      · exact stops [] note first
      · cases start
  | cons d tail ih =>
      intro note mem
      by_cases accepted : accepts d = true
      · rw [List.dropWhile_cons_of_pos accepted]
        rcases mem_many_notes.mp mem with first | ⟨c, rest, start, -, others⟩
        · simp only [charWhere, if_pos accepted, List.not_mem_nil] at first
        · obtain ⟨same, -⟩ := charWhere_result_eq_some_iff.mp start
          obtain ⟨-, rfl⟩ := List.cons.inj same
          exact ih note others
      · rw [List.dropWhile_cons_of_neg accepted]
        rcases mem_many_notes.mp mem with first | ⟨c, rest, start, -, -⟩
        · exact stops _ note first
        · obtain ⟨same, accepted'⟩ := charWhere_result_eq_some_iff.mp start
          obtain ⟨rfl, -⟩ := List.cons.inj same
          exact absurd accepted' accepted

theorem remaining_of_mem_run {accepts : Char → Bool} {s : List Char} :
    ∀ note ∈ (many1 (charWhere accepts) s).notes,
      note.remaining = (s.dropWhile accepts).length := by
  intro note mem
  apply remaining_of_mem_many_charWhere
  rw [mem_many_notes]
  rcases mem_many1_notes.mp mem with first | ⟨c, rest, start, others⟩
  · exact .inl first
  · refine .inr ⟨c, rest, start, ?_, others⟩
    obtain ⟨rfl, -⟩ := charWhere_result_eq_some_iff.mp start
    exact Nat.lt_succ_self _

/-- Where a character is found no note is left. -/
theorem char_notes_cons (c : Char) (rest : List Char) : (char c (c :: rest)).notes = [] := by
  simp [char, oneOf]

/-- Where no delimiter stands, a delimited string stops at once. -/
theorem remaining_of_mem_between {item : Parser Char} {delimiter : Char} {s : List Char}
    (other : s.head? ≠ some delimiter) :
    ∀ note ∈ (between delimiter item s).notes, note.remaining = s.length := by
  intro note mem
  rcases mem_bind_notes.mp mem with mem | ⟨c, rest, start, -⟩
  · exact stopsAtStart_oneOf _ s note mem
  · obtain ⟨rfl, -⟩ := char_result_eq_some_iff.mp start
    exact absurd rfl other

/-- A delimited string leaves no note behind the character that follows it. -/
theorem le_remaining_of_mem_between {item : Parser Char} {delimiter : Char}
    (reads : ReadsDoubling item delimiter) (peeks : Peeks 1 item) (confined : Confined item)
    {s rest : List Char} {value : String} (h : Quoted delimiter s value rest)
    (behind : rest.head? ≠ some delimiter) :
    ∀ note ∈ (between delimiter item s).notes, rest.length ≤ note.remaining := by
  cases h with
  | @intro written value rest body =>
      have inside := reads.many_complete body behind
      intro note mem
      rcases mem_bind_notes.mp mem with opening | ⟨c, tail, opening, more⟩
      · rw [char_notes_cons] at opening
        cases opening
      · obtain ⟨start, -⟩ := char_result_eq_some_iff.mp opening
        obtain rfl := (List.cons.inj start).2
        rcases mem_many_bind_notes.mp more with early | ⟨chars, tail, body, closing⟩
        · exact Nat.le_of_succ_le_succ
            (le_remaining_of_mem_many peeks confined inside note early)
        · rw [inside] at body
          obtain ⟨-, rfl⟩ := Prod.mk.inj (Option.some.inj body)
          rcases mem_bind_notes.mp closing with closing | ⟨d, tail, -, none⟩
          · rw [char_notes_cons] at closing
            cases closing
          · cases none

theorem le_remaining_of_mem_delimitedName {delimiter : Char} {s rest : List Char} {name : String}
    (h : Quoted delimiter s name rest) (behind : rest.head? ≠ some delimiter) :
    ∀ note ∈ (delimitedName delimiter s).notes, rest.length ≤ note.remaining :=
  le_remaining_of_mem_between (readsDoubling_name delimiter)
    ((peeks_doubled delimiter).orElse ((stopsAtStart_charWhere _).peeks 1))
    ((confined_doubled delimiter).orElse (confined_charWhere _)) h behind

theorem le_remaining_of_mem_bareName {s : List Char} :
    ∀ note ∈ (bareName s).notes, (s.dropWhile isNameChar).length ≤ note.remaining := by
  intro note mem
  obtain ⟨other, own, place⟩ := exists_mem_of_label mem
  rw [← place]
  rcases mem_bind_notes.mp own with own | ⟨run, rest, -, own⟩
  · exact Nat.le_of_eq (remaining_of_mem_run other own).symm
  · cases own

/-- Where a delimiter stands, a bare name stops at once. -/
theorem length_le_remaining_of_mem_bareName {delimiter : Char} {s rest : List Char}
    {name : String} (outside : isNameChar delimiter = false) (h : Quoted delimiter s name rest) :
    ∀ note ∈ (bareName s).notes, s.length ≤ note.remaining := by
  intro note mem
  have bound := le_remaining_of_mem_bareName note mem
  cases h with
  | intro body => rwa [List.dropWhile_cons_of_neg (by simp [outside])] at bound

/-- A name leaves no note behind the character that follows it. -/
theorem le_remaining_of_mem_fieldName {s rest : List Char} {name : String} (h : Name s name rest)
    (behind : NoDelimiter rest) : ∀ note ∈ (fieldName s).notes, rest.length ≤ note.remaining := by
  intro note mem
  obtain ⟨other, own, place⟩ := exists_mem_of_label mem
  rw [← place]
  have shrunk := Nat.le_of_lt (shrinks_name _ _ _ h)
  rcases mem_orElse_notes.mp own with own | ⟨noBare, own⟩
  · cases h with
    | bare reading =>
        obtain ⟨-, -, rfl⟩ := run_iff.mp reading
        exact le_remaining_of_mem_bareName other own
    | doubleQuoted quoted =>
        exact Nat.le_trans shrunk (length_le_remaining_of_mem_bareName (by decide) quoted other own)
    | backticks quoted =>
        exact Nat.le_trans shrunk (length_le_remaining_of_mem_bareName (by decide) quoted other own)
  · cases h with
    | bare reading =>
        rw [bareName_result_eq_some_iff.mpr ⟨_, reading, rfl⟩] at noBare
        cases noBare
    | doubleQuoted quoted =>
        rcases mem_orElse_notes.mp own with own | ⟨noQuotes, -⟩
        · exact le_remaining_of_mem_delimitedName quoted behind.1 other own
        · rw [delimitedName_complete quoted behind.1] at noQuotes
          cases noQuotes
    | backticks quoted =>
        rcases mem_orElse_notes.mp own with own | ⟨-, own⟩
        · have other' : s.head? ≠ some '\x22' := by
            cases quoted
            exact fun head => absurd (Option.some.inj head) (by decide)
          rw [remaining_of_mem_between other' other own]
          exact shrunk
        · exact le_remaining_of_mem_delimitedName quoted behind.2 other own

end Parser

end RecordQuery
