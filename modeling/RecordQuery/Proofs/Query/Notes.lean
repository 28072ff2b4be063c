import RecordQuery.Query.Statement
import RecordQuery.Proofs.Query.Results

/-!
# Where notes are left

The notes of a parser lie within the text that it was given, so the error that a text is refused with
has a place in that text. Of several notes the furthest decides, so notes that were left before the
text of a later reading began do not count once that reading has left one of its own.
-/

namespace RecordQuery

/-- The number of characters that remain from the place of a note to the end of the text. -/
def Note.remaining : Note → Nat
  | stopped remaining _ _ => remaining
  | raised e => e.remaining

/-- Whether the character that a note names as found, if it is about one, is the given one. A misspelt
keyword is about none and has a condition of its own. -/
def Note.Names (found? : Option Char) (misspelt : Prop) : Note → Prop
  | stopped _ _ found => found = found?
  | raised ⟨_, .expected _ found⟩ => found = found?
  | raised ⟨_, .keyword _⟩ => misspelt

namespace SyntaxError

theorem exists_follow_none (note : Note) :
    ∃ e, follow none note = some e ∧ e.remaining = note.remaining := by
  cases note with
  | stopped remaining items found => exact ⟨_, rfl, rfl⟩
  | raised e => exact ⟨e, rfl, rfl⟩

/-- A note further on replaces the error. -/
theorem follow_of_lt {e : SyntaxError} {note : Note} (further : note.remaining < e.remaining) :
    follow (some e) note = follow none note := by
  cases note with
  | stopped remaining items found => exact if_pos further
  | raised other => exact if_pos further

/-- A note before the place of the error is dropped. -/
theorem follow_of_gt {e : SyntaxError} {note : Note} (earlier : e.remaining < note.remaining) :
    follow (some e) note = some e := by
  cases note with
  | stopped remaining items found =>
      change e.remaining < remaining at earlier
      simp only [follow, if_neg (Nat.lt_asymm earlier), if_neg (Nat.ne_of_gt earlier)]
  | raised other =>
      change e.remaining < other.remaining at earlier
      simp only [follow, if_neg (Nat.lt_asymm earlier), if_neg (Nat.ne_of_gt earlier)]

theorem remaining_merge (e : SyntaxError) (reason : Reason) :
    (e.merge reason).remaining = e.remaining := by
  unfold merge
  split <;> rfl

/-- A note that is not further on leaves the place of the error. -/
theorem exists_follow_of_le {e : SyntaxError} {note : Note}
    (near : e.remaining ≤ note.remaining) :
    ∃ e', follow (some e) note = some e' ∧ e'.remaining = e.remaining := by
  rcases Nat.lt_or_eq_of_le near with earlier | same
  · exact ⟨e, follow_of_gt earlier, rfl⟩
  · cases note with
    | stopped remaining items found =>
        change e.remaining = remaining at same
        subst same
        simp only [follow, Nat.lt_irrefl, if_false, if_true]
        cases e.reason with
        | expected known old => exact ⟨_, rfl, rfl⟩
        | keyword k => exact ⟨e, rfl, rfl⟩
    | raised other =>
        change e.remaining = other.remaining at same
        simp only [follow, ← same, Nat.lt_irrefl, if_false, if_true]
        exact ⟨_, rfl, remaining_merge ..⟩

/-- The error after more notes stands at the place of the error before them or of one of them. -/
theorem exists_foldl_follow (e : SyntaxError) (notes : List Note) :
    ∃ e', notes.foldl follow (some e) = some e' ∧
      (e'.remaining = e.remaining ∨ ∃ note ∈ notes, note.remaining = e'.remaining) := by
  induction notes generalizing e with
  | nil => exact ⟨e, rfl, .inl rfl⟩
  | cons note rest ih =>
      rw [List.foldl_cons]
      by_cases further : note.remaining < e.remaining
      · obtain ⟨e₁, step, place⟩ := exists_follow_none note
        rw [follow_of_lt further, step]
        obtain ⟨e', found, own | ⟨other, mem, own⟩⟩ := ih e₁
        · exact ⟨e', found, .inr ⟨note, List.mem_cons_self .., place.symm.trans own.symm⟩⟩
        · exact ⟨e', found, .inr ⟨other, List.mem_cons_of_mem _ mem, own⟩⟩
      · obtain ⟨e₁, step, place⟩ := exists_follow_of_le (Nat.not_lt.mp further)
        rw [step]
        obtain ⟨e', found, own | ⟨other, mem, own⟩⟩ := ih e₁
        · exact ⟨e', found, .inl (own.trans place)⟩
        · exact ⟨e', found, .inr ⟨other, List.mem_cons_of_mem _ mem, own⟩⟩

/-- Where a note was left there is an error, and it stands at the place of a note. -/
theorem exists_furthest {notes : List Note} (some : notes ≠ []) :
    ∃ e, furthest notes = .some e ∧ ∃ note ∈ notes, note.remaining = e.remaining := by
  cases notes with
  | nil => exact absurd rfl some
  | cons note rest =>
      obtain ⟨e₁, step, place⟩ := exists_follow_none note
      obtain ⟨e, found, own | ⟨other, mem, own⟩⟩ := exists_foldl_follow e₁ rest
      · refine ⟨e, ?_, note, List.mem_cons_self .., place.symm.trans own.symm⟩
        rw [furthest, List.foldl_cons, step, found]
      · refine ⟨e, ?_, other, List.mem_cons_of_mem _ mem, own⟩
        rw [furthest, List.foldl_cons, step, found]

theorem exists_mem_of_furthest {notes : List Note} {e : SyntaxError}
    (found : furthest notes = some e) : ∃ note ∈ notes, note.remaining = e.remaining := by
  have nonempty : notes ≠ [] := by
    rintro rfl
    cases found
  obtain ⟨e', found', place⟩ := exists_furthest nonempty
  rw [found] at found'
  rwa [Option.some.inj found']

/-- No note stands behind the error that the notes amount to, by induction on the notes. -/
theorem remaining_le_of_foldl {current : Option SyntaxError} {notes : List Note} {e : SyntaxError}
    (found : notes.foldl follow current = some e) :
    (∀ e₀, current = some e₀ → e.remaining ≤ e₀.remaining) ∧
      ∀ note ∈ notes, e.remaining ≤ note.remaining := by
  induction notes generalizing current with
  | nil =>
      refine ⟨fun e₀ start => ?_, fun note mem => nomatch mem⟩
      obtain rfl := Option.some.inj (start.symm.trans found)
      exact Nat.le_refl _
  | cons note rest ih =>
      have next : ∃ e₁, follow current note = some e₁ ∧ e₁.remaining ≤ note.remaining ∧
          ∀ e₀, current = some e₀ → e₁.remaining ≤ e₀.remaining := by
        cases current with
        | none =>
            obtain ⟨e₁, step, place⟩ := exists_follow_none note
            exact ⟨e₁, step, Nat.le_of_eq place, fun _ start => nomatch start⟩
        | some e₀ =>
            by_cases further : note.remaining < e₀.remaining
            · obtain ⟨e₁, step, place⟩ := exists_follow_none note
              refine ⟨e₁, (follow_of_lt further).trans step, Nat.le_of_eq place, ?_⟩
              rintro _ ⟨⟩
              omega
            · obtain ⟨e₁, step, place⟩ := exists_follow_of_le (Nat.not_lt.mp further)
              refine ⟨e₁, step, by omega, ?_⟩
              rintro _ ⟨⟩
              exact Nat.le_of_eq place
      obtain ⟨e₁, step, nearNote, nearCurrent⟩ := next
      obtain ⟨before, others⟩ := ih found
      have reached := before e₁ step
      refine ⟨fun e₀ start => Nat.le_trans reached (nearCurrent e₀ start), ?_⟩
      exact List.forall_mem_cons.mpr ⟨Nat.le_trans reached nearNote, others⟩

theorem remaining_le_of_furthest {notes : List Note} {e : SyntaxError}
    (found : furthest notes = some e) : ∀ note ∈ notes, e.remaining ≤ note.remaining :=
  (remaining_le_of_foldl found).2

/-- Notes before a place do not count where others are left behind it. -/
theorem furthest_append {earlier later : List Note} {n : Nat}
    (before : ∀ note ∈ earlier, n < note.remaining) (behind : ∀ note ∈ later, note.remaining ≤ n)
    (some : later ≠ []) : furthest (earlier ++ later) = furthest later := by
  cases later with
  | nil => exact absurd rfl some
  | cons note rest =>
      unfold furthest
      rw [List.foldl_append, List.foldl_cons, List.foldl_cons]
      apply congrArg (List.foldl follow · rest)
      cases found : earlier.foldl follow none with
      | none => rfl
      | some e =>
          obtain ⟨other, mem, place⟩ := exists_mem_of_furthest found
          apply follow_of_lt
          have := before other mem
          have := behind note (List.mem_cons_self ..)
          omega

end SyntaxError

@[ext]
theorem Outcome.ext {α : Type} {o o' : Outcome α} (result : o.result = o'.result)
    (notes : o.notes = o'.notes) : o = o' := by
  cases o
  cases result
  cases notes
  rfl

namespace Parser

variable {α β : Type}

/-! ### The notes of the combinators -/

theorem bind_notes (p : Parser α) (f : α → Parser β) (s : List Char) :
    ((p >>= f) s).notes =
      (p s).notes ++ (p s).result.elim [] fun found => (f found.1 found.2).notes := by
  rw [bind_eq]
  unfold andThen
  rcases p s with ⟨_ | found, notes⟩
  · exact (List.append_nil notes).symm
  · rfl

/-- A note of a sequence is one of its first part, or of its second part behind it. -/
theorem mem_bind_notes {p : Parser α} {f : α → Parser β} {s : List Char} {note : Note} :
    note ∈ ((p >>= f) s).notes ↔
      note ∈ (p s).notes ∨ ∃ a rest, (p s).result = some (a, rest) ∧ note ∈ (f a rest).notes := by
  rw [bind_notes, List.mem_append]
  cases (p s).result with
  | none => simp
  | some found => simp [Prod.ext_iff, and_assoc]

/-- A note of a choice is one of its first alternative, or of the second one where the first fails. -/
theorem mem_orElse_notes {p q : Parser α} {s : List Char} {note : Note} :
    note ∈ ((p <|> q) s).notes ↔
      note ∈ (p s).notes ∨ ((p s).result = none ∧ note ∈ (q s).notes) := by
  change note ∈ (otherwise p q s).notes ↔ _
  unfold otherwise
  rcases p s with ⟨_ | found, notes⟩
  · simp
  · simp

/-- A note of a repetition is one of its first item, or of the repetition behind it. -/
theorem mem_many_notes {p : Parser α} {s : List Char} {note : Note} :
    note ∈ (many p s).notes ↔
      note ∈ (p s).notes ∨ ∃ a rest, (p s).result = some (a, rest) ∧ rest.length < s.length ∧
        note ∈ (many p rest).notes := by
  rw [many]
  rcases p s with ⟨_ | ⟨a, rest⟩, notes⟩
  · simp
  · by_cases shorter : rest.length < s.length
    · simp [shorter, and_assoc]
    · simp [shorter, and_assoc]

/-- What holds of the notes of an item and passes to the front of an item holds of the notes of a
repetition, by induction on the size of the text. -/
theorem many_note_induction {p : Parser α} {motive : List Char → Prop} {note : Note}
    (own : ∀ s, note ∈ (p s).notes → motive s)
    (step : ∀ s a rest, (p s).result = some (a, rest) → motive rest → motive s)
    {s : List Char} (mem : note ∈ (many p s).notes) : motive s := by
  induction size : s.length using Nat.strongRecOn generalizing s with
  | ind n ih =>
      rcases mem_many_notes.mp mem with mem | ⟨a, rest, start, shorter, mem⟩
      · exact own s mem
      · exact step s a rest start (ih rest.length (size ▸ shorter) mem rfl)

theorem mem_many_bind_notes {p : Parser α} {f : List α → Parser β} {s : List Char}
    {note : Note} :
    note ∈ (Bind.bind (m := Parser) (many p) f s).notes ↔
      note ∈ (many p s).notes ∨
        ∃ as rest, (many p s).result = some (as, rest) ∧ note ∈ (f as rest).notes :=
  mem_bind_notes

theorem mem_many1_notes {p : Parser α} {s : List Char} {note : Note} :
    note ∈ (many1 p s).notes ↔
      note ∈ (p s).notes ∨
        ∃ a rest, (p s).result = some (a, rest) ∧ note ∈ (many p rest).notes := by
  rw [many1, mem_bind_notes]
  apply or_congr Iff.rfl
  apply exists_congr
  intro a
  apply exists_congr
  intro rest
  apply and_congr_right
  intro _
  rw [mem_many_bind_notes]
  apply or_iff_left
  rintro ⟨as, tail, -, mem⟩
  cases mem

theorem padded_notes (p : Parser α) (s : List Char) :
    (padded p s).notes = (p (skipBlanks s)).notes := by
  rw [padded, bind_notes]
  change [] ++ ((p >>= fun a => blanks >>= fun _ => pure a) (skipBlanks s)).notes = _
  rw [bind_notes]
  rcases (p (skipBlanks s)).result with _ | found
  · exact List.append_nil _
  · exact List.append_nil _

/-- The note of a labelled parser stands at the place of one of its own notes. -/
theorem exists_mem_of_label {l : Construct} {p : Parser α} {s : List Char} {note : Note}
    (mem : note ∈ (label l p s).notes) :
    ∃ other ∈ (p s).notes, other.remaining = note.remaining := by
  obtain ⟨e, found, rfl⟩ := Option.map_eq_some_iff.mp (Option.mem_toList.mp mem)
  obtain ⟨other, own, place⟩ := SyntaxError.exists_mem_of_furthest found
  refine ⟨other, own, place.trans ?_⟩
  split <;> rfl

/-- Wherever a labelled parser leaves a note inside, its own note stands there or further on. -/
theorem exists_mem_label {l : Construct} {p : Parser α} {s : List Char} {note : Note}
    (mem : note ∈ (p s).notes) :
    ∃ other ∈ (label l p s).notes, other.remaining ≤ note.remaining := by
  obtain ⟨e, found, -⟩ := SyntaxError.exists_furthest (List.ne_nil_of_mem mem)
  have near := SyntaxError.remaining_le_of_furthest found note mem
  simp only [label, found, Option.map_some, Option.toList_some, List.mem_singleton,
    exists_eq_left]
  split
  · exact near
  · exact near

theorem exists_mem_of_summary {notes : List Note} {note : Note} (mem : note ∈ summary notes) :
    ∃ other ∈ notes, other.remaining = note.remaining := by
  obtain ⟨e, found, rfl⟩ := Option.map_eq_some_iff.mp (Option.mem_toList.mp mem)
  exact SyntaxError.exists_mem_of_furthest found

end Parser

/-! ### Notes within the text -/

/-- Whether the rest and all notes of an outcome lie within the last `n` characters. -/
structure Outcome.Within {α : Type} (n : Nat) (o : Outcome α) : Prop where
  rest_le : ∀ a rest, o.result = some (a, rest) → rest.length ≤ n
  note_le : ∀ note ∈ o.notes, note.remaining ≤ n

namespace Parser

variable {α β : Type}

/-- The parser leaves a rest of its text and notes within it. -/
def Confined (p : Parser α) : Prop := ∀ s, (p s).Within s.length

namespace Confined

theorem pure (a : α) : Confined (Pure.pure a : Parser α) := by
  intro s
  constructor
  · intro b rest found
    obtain ⟨-, rfl⟩ := Prod.mk.inj (Option.some.inj found)
    exact Nat.le_refl _
  · intro note mem
    cases mem

theorem bind {p : Parser α} {f : α → Parser β} (first : Confined p)
    (next : ∀ a, Confined (f a)) : Confined (p >>= f) := by
  intro s
  constructor
  · intro b rest found
    obtain ⟨a, t, start, inside⟩ := bind_result_eq_some_iff.mp found
    exact Nat.le_trans ((next a t).rest_le b rest inside) ((first s).rest_le a t start)
  · intro note mem
    rcases mem_bind_notes.mp mem with mem | ⟨a, t, start, mem⟩
    · exact (first s).note_le note mem
    · exact Nat.le_trans ((next a t).note_le note mem) ((first s).rest_le a t start)

theorem orElse {p q : Parser α} (first : Confined p) (second : Confined q) :
    Confined (p <|> q) := by
  intro s
  constructor
  · intro a rest found
    rw [orElse_result, Option.or_eq_some_iff] at found
    rcases found with found | ⟨-, found⟩
    · exact (first s).rest_le a rest found
    · exact (second s).rest_le a rest found
  · intro note mem
    rcases mem_orElse_notes.mp mem with mem | ⟨-, mem⟩
    · exact (first s).note_le note mem
    · exact (second s).note_le note mem

/-- A repetition keeps within its text as its items do. -/
theorem many {p : Parser α} (item : Confined p) :
    Confined (α := List α) (Parser.many p) := by
  have shrink (s : List Char) (a : α) (t : List Char) (start : (p s).result = some (a, t)) {n : Nat}
      (inside : n ≤ t.length) : n ≤ s.length := Nat.le_trans inside ((item s).rest_le a t start)
  intro s
  constructor
  · intro as rest found
    exact many_rest_induction (motive := fun s rest => rest.length ≤ s.length)
      (fun _ => Nat.le_refl _) (fun s a t _ start => shrink s a t start) found
  · intro note mem
    exact many_note_induction (motive := fun s => note.remaining ≤ s.length)
      (fun s own => (item s).note_le note own) (fun s a t start => shrink s a t start) mem

theorem many1 {p : Parser α} (item : Confined p) : Confined (Parser.many1 p) :=
  item.bind fun _ => item.many.bind fun _ => pure _

theorem optional {p : Parser α} (item : Confined p) : Confined (Parser.optional p) :=
  (item.bind fun _ => pure _).orElse (pure none)

theorem label {p : Parser α} (l : Construct) (inside : Confined p) :
    Confined (Parser.label l p) := by
  intro s
  constructor
  · intro a rest found
    exact (inside s).rest_le a rest found
  · intro note mem
    obtain ⟨other, own, place⟩ := exists_mem_of_label mem
    exact place ▸ (inside s).note_le other own

theorem padded {p : Parser α} (inside : Confined p) : Confined (Parser.padded p) := by
  have skip (s : List Char) : (skipBlanks s).length ≤ s.length :=
    (List.dropWhile_sublist _).length_le
  intro s
  constructor
  · intro a rest found
    obtain ⟨t, start, rfl⟩ := padded_result_eq_some_iff.mp found
    have := (inside (skipBlanks s)).rest_le a t start
    have := skip s
    have := skip t
    omega
  · intro note mem
    rw [padded_notes] at mem
    exact Nat.le_trans ((inside (skipBlanks s)).note_le note mem) (skip s)

/-- A parser that describes itself keeps within its text if its description does. -/
theorem recursive {body : Parser α → Parser α}
    (step : ∀ p, Confined p → Confined (body p)) : Confined (Parser.recursive body) :=
  recursive_induction (motive := fun s o => o.Within s.length)
    (fun _ => ⟨fun _ _ found => (nomatch found), fun _ mem => (nomatch mem)⟩) step

end Confined

/-- A whole text is refused with the furthest error. -/
theorem readAll_eq (p : Parser α) (text : List Char) :
    p.readAll text = (p text).result.elim
      (.error ((SyntaxError.furthest (p text).notes).getD
        ⟨text.length, .expected [] text.head?⟩)) fun found => .ok found.1 := by
  unfold readAll
  rcases p text with ⟨_ | found, notes⟩ <;> rfl

/-- An error that a whole text is refused with has a place in the text. -/
theorem Confined.remaining_le {p : Parser α} (confined : Confined p) {text : List Char}
    {e : SyntaxError} (refused : p.readAll text = .error e) : e.remaining ≤ text.length := by
  rw [readAll_eq] at refused
  cases result : (p text).result with
  | some found =>
      rw [result] at refused
      cases refused
  | none =>
      rw [result] at refused
      obtain rfl := Except.error.inj refused
      cases found : SyntaxError.furthest (p text).notes with
      | none => exact Nat.le_refl _
      | some e =>
          obtain ⟨note, mem, place⟩ := SyntaxError.exists_mem_of_furthest found
          exact place ▸ (confined text).note_le note mem

/-! ### Refusals leave notes -/

/-- Whether the parser leaves a note wherever it refuses a text. -/
def Reports (p : Parser α) : Prop := ∀ s, (p s).result = none → ∃ note, note ∈ (p s).notes

namespace Reports

theorem pure (a : α) : Reports (Pure.pure a : Parser α) := by
  rintro s ⟨⟩

theorem bind {p : Parser α} {f : α → Parser β} (first : Reports p)
    (next : ∀ a, Reports (f a)) : Reports (p >>= f) := by
  intro s refused
  cases start : (p s).result with
  | none =>
      obtain ⟨note, mem⟩ := first s start
      exact ⟨note, mem_bind_notes.mpr (.inl mem)⟩
  | some found =>
      rw [bind_result, start, Option.bind_some] at refused
      obtain ⟨note, mem⟩ := next found.1 found.2 refused
      exact ⟨note, mem_bind_notes.mpr (.inr ⟨_, _, start, mem⟩)⟩

/-- A choice leaves a note if its last alternative does. -/
theorem orElse (p : Parser α) {q : Parser α} (second : Reports q) : Reports (p <|> q) := by
  intro s refused
  rw [orElse_result, Option.or_eq_none_iff] at refused
  obtain ⟨note, mem⟩ := second s refused.2
  exact ⟨note, mem_orElse_notes.mpr (.inr ⟨refused.1, mem⟩)⟩

/-- It also does if its first alternative does. -/
theorem orElse_of_first {p : Parser α} (first : Reports p) (q : Parser α) : Reports (p <|> q) := by
  intro s refused
  rw [orElse_result, Option.or_eq_none_iff] at refused
  obtain ⟨note, mem⟩ := first s refused.1
  exact ⟨note, mem_orElse_notes.mpr (.inl mem)⟩

theorem many (p : Parser α) : Reports (α := List α) (Parser.many p) :=
  fun s refused => absurd refused (many_result_ne_none p s)

theorem many1 {p : Parser α} (item : Reports p) : Reports (Parser.many1 p) :=
  item.bind fun _ => (Reports.many p).bind fun _ => .pure _

theorem label {p : Parser α} (l : Construct) (inside : Reports p) :
    Reports (Parser.label l p) := by
  intro s refused
  obtain ⟨note, mem⟩ := inside s refused
  obtain ⟨other, own, -⟩ := exists_mem_label mem
  exact ⟨other, own⟩

theorem padded {p : Parser α} (inside : Reports p) : Reports (Parser.padded p) := by
  intro s refused
  rw [padded_result, Option.map_eq_none_iff] at refused
  rw [padded_notes]
  exact inside _ refused

end Reports

/-! ### Single characters -/

/-- The parser leaves its notes at the place where it began. -/
def StopsAtStart (p : Parser α) : Prop := ∀ s, ∀ note ∈ (p s).notes, note.remaining = s.length

theorem StopsAtStart.confined {p : Parser α} (stops : StopsAtStart p)
    (rest_le : ∀ s a rest, (p s).result = some (a, rest) → rest.length ≤ s.length) :
    Confined p := fun s => ⟨rest_le s, fun note mem => Nat.le_of_eq (stops s note mem)⟩

/-- What comes of reading one character of a class: it is taken without a note, or one note is left that
stands where another character stands and names it. -/
inductive OneCharacter (accepts : Char → Prop) : List Char → Outcome Char → Prop
  | taken {c : Char} {rest : List Char} (own : accepts c) :
      OneCharacter accepts (c :: rest) ⟨some (c, rest), []⟩
  | refused {s : List Char} {note : Note} (other : ∀ c ∈ s.head?, ¬ accepts c)
      (place : note.remaining = s.length) (names : note.Names s.head? False) :
      OneCharacter accepts s (refuse note)

/-- The parser reads one character of a class. -/
def ReadsOne (p : Parser Char) (accepts : Char → Prop) : Prop := ∀ s, OneCharacter accepts s (p s)

theorem readsOne_charWhere (accepts : Char → Bool) :
    ReadsOne (charWhere accepts) (accepts · = true) := by
  intro s
  cases s with
  | nil => exact .refused (fun _ mem => nomatch mem) rfl rfl
  | cons c rest =>
      rw [charWhere]
      split
      · rename_i own
        exact .taken own
      · rename_i other
        exact .refused (fun _ mem => Option.some.inj mem ▸ other) rfl rfl

theorem readsOne_oneOf (allowed : List Char) : ReadsOne (oneOf allowed) (· ∈ allowed) := by
  intro s
  cases s with
  | nil => exact .refused (fun _ mem => nomatch mem) rfl rfl
  | cons c rest =>
      rw [oneOf]
      split
      · rename_i own
        exact .taken own
      · rename_i other
        exact .refused (fun _ mem => Option.some.inj mem ▸ other) rfl rfl

theorem readsOne_charOtherThan (refused : Char) :
    ReadsOne (charOtherThan refused) (· ≠ refused) := by
  intro s
  cases s with
  | nil => exact .refused (fun _ mem => nomatch mem) rfl rfl
  | cons c rest =>
      rw [charOtherThan]
      split
      · rename_i same
        exact .refused (fun _ mem => Option.some.inj mem ▸ not_not_intro same) rfl rfl
      · rename_i other
        exact .taken other

namespace ReadsOne

variable {p : Parser Char} {accepts : Char → Prop}

theorem result_eq_some_iff (reads : ReadsOne p accepts) {s rest : List Char} {c : Char} :
    (p s).result = some (c, rest) ↔ s = c :: rest ∧ accepts c := by
  generalize outcome : p s = o
  cases outcome ▸ reads s with
  | taken own =>
      constructor
      · rintro ⟨⟩
        exact ⟨rfl, own⟩
      · rintro ⟨same, -⟩
        obtain ⟨rfl, rfl⟩ := List.cons.inj same
        rfl
  | refused other =>
      constructor
      · rintro ⟨⟩
      · rintro ⟨rfl, own⟩
        exact absurd own (other c rfl)

/-- The only note is left at the beginning and names what stands there. -/
theorem of_mem (reads : ReadsOne p accepts) {s : List Char} {note : Note}
    (mem : note ∈ (p s).notes) : note.remaining = s.length ∧ note.Names s.head? False := by
  generalize p s = o, reads s = outcome at mem
  cases outcome with
  | taken own => cases mem
  | refused other place names =>
      rw [List.mem_singleton.mp mem]
      exact ⟨place, names⟩

theorem stopsAtStart (reads : ReadsOne p accepts) : StopsAtStart p :=
  fun _ _ mem => (reads.of_mem mem).1

theorem reports (reads : ReadsOne p accepts) : Reports p := by
  intro s none
  generalize p s = o, reads s = outcome at none
  cases outcome with
  | taken own => cases none
  | refused other place names => exact ⟨_, List.mem_singleton_self _⟩

theorem confined (reads : ReadsOne p accepts) : Confined p := by
  apply reads.stopsAtStart.confined
  intro s c rest found
  obtain ⟨rfl, -⟩ := reads.result_eq_some_iff.mp found
  exact Nat.le_succ _

end ReadsOne

theorem stopsAtStart_charWhere (accepts : Char → Bool) : StopsAtStart (charWhere accepts) :=
  (readsOne_charWhere accepts).stopsAtStart

theorem stopsAtStart_oneOf (allowed : List Char) : StopsAtStart (oneOf allowed) :=
  (readsOne_oneOf allowed).stopsAtStart

theorem stopsAtStart_charOtherThan (refused : Char) : StopsAtStart (charOtherThan refused) :=
  (readsOne_charOtherThan refused).stopsAtStart

theorem stopsAtStart_endOfInput : StopsAtStart endOfInput := by
  intro s note mem
  cases s with
  | nil => cases mem
  | cons c rest => rw [List.mem_singleton.mp mem]; rfl

theorem reports_oneOf (allowed : List Char) : Reports (oneOf allowed) :=
  (readsOne_oneOf allowed).reports

theorem reports_endOfInput : Reports endOfInput := by
  intro s refused
  cases s with
  | nil => cases refused
  | cons c rest => exact ⟨_, List.mem_singleton_self _⟩

end Parser

end RecordQuery
