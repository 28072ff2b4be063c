import RecordQuery.Query.Call
import RecordQuery.Proofs.Query.Places

/-!
# How far a call is looked at

A parser is local if its notes tell how far it has looked: on two texts that agree up to and with some
character, it does the same as long as it leaves no note behind that character. A local parser that refuses
a text refuses every text that agrees with it up to and with the character at the furthest note. All
parsers of call notation are local.

## Implementation notes

Keywords are not local. A misspelt one leaves its note at its first letter, while the letters behind it
have been looked at.

A parser that describes itself sees itself differently inside two texts, so locality is stated for a pair
of parsers, one for each text.
-/

namespace RecordQuery

variable {α β : Type} {c : Char} {v w : List Char}

/-- Whether results for two texts, of which one goes on with `v` and the other one with `w` behind the
character `c`, agree unless the first result has come to `v`. -/
inductive Alike (c : Char) (v w : List Char) :
    Option (α × List Char) → Option (α × List Char) → Prop
  | refused : Alike c v w none none
  | early (a : α) (u : List Char) : Alike c v w (some (a, u ++ c :: v)) (some (a, u ++ c :: w))
  | late {a : α} {rest : List Char} {result : Option (α × List Char)}
      (le : rest.length ≤ v.length) : Alike c v w (some (a, rest)) result

theorem Alike.map {r r' : Option (α × List Char)} (alike : Alike c v w r r') (f : α → β) :
    Alike c v w (r.map fun found => (f found.1, found.2))
      (r'.map fun found => (f found.1, found.2)) := by
  cases alike with
  | refused => exact .refused
  | early a u => exact .early (f a) u
  | late le => exact .late le

/-- Whether an outcome leaves a rest or, if there is none, a note within the last `n` characters. -/
structure Outcome.Noted (n : Nat) (o : Outcome α) : Prop where
  rest_le : ∀ a rest, o.result = some (a, rest) → rest.length ≤ n
  exists_note : o.result = none → ∃ note ∈ o.notes, note.remaining ≤ n

namespace Parser

/-- Whether two parsers do alike, the one in front of `c :: v` and the other in front of `c :: w`, as long
as no note of the first one is left in `v`, and whether the first one answers in `v`. -/
structure Local (c : Char) (v w : List Char) (p p' : Parser α) : Prop where
  alike : ∀ u, (∀ note ∈ (p (u ++ c :: v)).notes, v.length < note.remaining) →
    Alike c v w (p (u ++ c :: v)).result (p' (u ++ c :: w)).result
  noted : ∀ s, s.length ≤ v.length → (p s).Noted v.length

/-- A parser that keeps within its text and leaves a note where it refuses it. -/
theorem Confined.noted {p : Parser α} (confined : Confined p) (reports : Reports p)
    {s : List Char} {n : Nat} (le : s.length ≤ n) : (p s).Noted n := by
  constructor
  · intro a rest found
    exact Nat.le_trans ((confined s).rest_le a rest found) le
  · intro refused
    obtain ⟨note, mem⟩ := reports s refused
    exact ⟨note, mem, Nat.le_trans ((confined s).note_le note mem) le⟩

namespace Local

variable {p p' q q' : Parser α}

theorem pure (a : α) : Local c v w (Pure.pure a : Parser α) (Pure.pure a) := by
  constructor
  · exact fun u _ => .early a u
  · exact fun s le => (Confined.pure a).noted (Reports.pure a) le

/-- Behind the character the second part decides, and it would have left a note if it refused. -/
theorem bind {f f' : α → Parser β} (first : Local c v w p p')
    (next : ∀ a, Local c v w (f a) (f' a)) : Local c v w (p >>= f) (p' >>= f') := by
  constructor
  · intro u early
    have start := first.alike u fun note mem => early note (mem_bind_notes.mpr (.inl mem))
    have inside : ∀ a rest, (p (u ++ c :: v)).result = some (a, rest) →
        ∀ note ∈ (f a rest).notes, v.length < note.remaining :=
      fun a rest found note mem => early note (mem_bind_notes.mpr (.inr ⟨a, rest, found, mem⟩))
    rw [bind_result, bind_result]
    generalize (p (u ++ c :: v)).result = r, (p' (u ++ c :: w)).result = r' at start inside ⊢
    cases start with
    | refused => exact .refused
    | early a u => exact (next a).alike u (inside a _ rfl)
    | @late a rest r' le =>
        rw [Option.bind_some]
        cases found : (f a rest).result with
        | some pair => exact .late (((next a).noted rest le).rest_le _ _ found)
        | none =>
            obtain ⟨note, mem, near⟩ := ((next a).noted rest le).exists_note found
            exact absurd (inside a rest rfl note mem) (Nat.not_lt.mpr near)
  · intro s le
    constructor
    · intro b rest found
      obtain ⟨a, t, start, found⟩ := bind_result_eq_some_iff.mp found
      have near := (first.noted s le).rest_le a t start
      exact ((next a).noted t near).rest_le b rest found
    · intro refused
      cases start : (p s).result with
      | none =>
          obtain ⟨note, mem, near⟩ := (first.noted s le).exists_note start
          exact ⟨note, mem_bind_notes.mpr (.inl mem), near⟩
      | some found =>
          rw [bind_result, start, Option.bind_some] at refused
          have near := (first.noted s le).rest_le _ _ start
          obtain ⟨note, mem, near⟩ := ((next found.1).noted found.2 near).exists_note refused
          exact ⟨note, mem_bind_notes.mpr (.inr ⟨_, _, start, mem⟩), near⟩

theorem orElse (first : Local c v w p p') (second : Local c v w q q') :
    Local c v w (p <|> q) (p' <|> q') := by
  constructor
  · intro u early
    have start := first.alike u fun note mem => early note (mem_orElse_notes.mpr (.inl mem))
    have inside : (p (u ++ c :: v)).result = none →
        ∀ note ∈ (q (u ++ c :: v)).notes, v.length < note.remaining :=
      fun refused note mem => early note (mem_orElse_notes.mpr (.inr ⟨refused, mem⟩))
    rw [orElse_result, orElse_result]
    generalize (p (u ++ c :: v)).result = r, (p' (u ++ c :: w)).result = r' at start inside ⊢
    cases start with
    | refused => exact second.alike u (inside rfl)
    | early a u => exact .early a u
    | late le => exact .late le
  · intro s le
    constructor
    · intro a rest found
      rw [orElse_result, Option.or_eq_some_iff] at found
      rcases found with found | ⟨-, found⟩
      · exact (first.noted s le).rest_le a rest found
      · exact (second.noted s le).rest_le a rest found
    · intro refused
      rw [orElse_result, Option.or_eq_none_iff] at refused
      obtain ⟨note, mem, near⟩ := (first.noted s le).exists_note refused.1
      exact ⟨note, mem_orElse_notes.mpr (.inl mem), near⟩

/-- A repetition that begins in `v` ends there. -/
theorem noted_many (item : Local c v w p p') (s : List Char) (le : s.length ≤ v.length) :
    (Parser.many p s).Noted v.length := by
  refine ⟨fun as rest found => ?_, fun refused => absurd refused (many_result_ne_none p s)⟩
  apply many_rest_induction (motive := fun s rest => s.length ≤ v.length → rest.length ≤ v.length)
    (fun _ => id) ?_ found le
  intro s a t rest start inside near
  exact inside ((item.noted s near).rest_le a t start)

/-- A repetition takes the same items in front of the character, by induction on what stands there. -/
theorem many (item : Local c v w p p') :
    Local (α := List α) c v w (Parser.many p) (Parser.many p') := by
  refine ⟨fun u early => ?_, item.noted_many⟩
  induction size : u.length using Nat.strongRecOn generalizing u with
  | ind n ih =>
      have start := item.alike u fun note mem => early note (mem_many_notes.mpr (.inl mem))
      have inside : ∀ a rest, (p (u ++ c :: v)).result = some (a, rest) →
          rest.length < (u ++ c :: v).length →
          ∀ note ∈ (Parser.many p rest).notes, v.length < note.remaining :=
        fun a rest found shorter note mem =>
          early note (mem_many_notes.mpr (.inr ⟨a, rest, found, shorter, mem⟩))
      rw [many_result, many_result p']
      generalize (p (u ++ c :: v)).result = r, (p' (u ++ c :: w)).result = r' at start inside ⊢
      cases start with
      | refused => exact .early [] u
      | early a t =>
          by_cases shorter : t.length < u.length
          · have here : (t ++ c :: v).length < (u ++ c :: v).length := by simpa using shorter
            have there : (t ++ c :: w).length < (u ++ c :: w).length := by simpa using shorter
            simp only [if_pos here, if_pos there]
            exact (ih t.length (size ▸ shorter) t (inside a _ rfl here) rfl).map (a :: ·)
          · have here : ¬(t ++ c :: v).length < (u ++ c :: v).length := by simpa using shorter
            have there : ¬(t ++ c :: w).length < (u ++ c :: w).length := by simpa using shorter
            simp only [if_neg here, if_neg there]
            exact .early [a] t
      | @late a rest r' le =>
          have shorter : rest.length < (u ++ c :: v).length := by
            rw [List.length_append, List.length_cons]
            omega
          simp only [if_pos shorter]
          cases found : (Parser.many p rest).result with
          | none => exact absurd found (many_result_ne_none p rest)
          | some pair => exact .late ((item.noted_many rest le).rest_le _ _ found)

theorem many1 (item : Local c v w p p') : Local c v w (Parser.many1 p) (Parser.many1 p') :=
  item.bind fun _ => item.many.bind fun _ => pure _

/-- The note of a labelled parser is left at the furthest of its notes. -/
theorem label (l : Construct) (inside : Local c v w p p') :
    Local c v w (Parser.label l p) (Parser.label l p') := by
  constructor
  · intro u early
    apply inside.alike u
    intro note mem
    obtain ⟨other, own, near⟩ := exists_mem_label mem
    exact Nat.lt_of_lt_of_le (early other own) near
  · intro s le
    refine ⟨(inside.noted s le).rest_le, fun refused => ?_⟩
    obtain ⟨note, mem, behind⟩ := (inside.noted s le).exists_note refused
    obtain ⟨other, own, near⟩ := exists_mem_label mem
    exact ⟨other, own, Nat.le_trans near behind⟩

/-- Blanks leave no note, but they go past the character only if it is one of them. -/
theorem blanks : Local c v w Parser.blanks Parser.blanks := by
  constructor
  · intro u _
    change Alike c v w (some ((), skipBlanks (u ++ c :: v))) (some ((), skipBlanks (u ++ c :: w)))
    unfold skipBlanks
    rw [List.dropWhile_append, List.dropWhile_append]
    split
    · by_cases blank : isBlank c = true
      · rw [List.dropWhile_cons_of_pos blank]
        exact .late (List.dropWhile_sublist _).length_le
      · rw [List.dropWhile_cons_of_neg blank, List.dropWhile_cons_of_neg blank]
        exact .early () []
    · exact .early () _
  · intro s le
    refine ⟨?_, fun refused => nomatch refused⟩
    rintro _ _ ⟨⟩
    exact Nat.le_trans (List.dropWhile_sublist _).length_le le

theorem padded (inside : Local c v w p p') : Local c v w (Parser.padded p) (Parser.padded p') :=
  blanks.bind fun _ => inside.bind fun _ => blanks.bind fun _ => pure _

/-- A parser that describes itself is local if its description is, by induction on what stands in front of
the character. Only texts that are shorter than the whole one count for the parser inside it. -/
theorem recursive {body : Parser α → Parser α} (confined : Confined (Parser.recursive body))
    (reports : Reports (Parser.recursive body))
    (step : ∀ p p', Local c v w p p' → Local c v w (body p) (body p')) :
    Local c v w (Parser.recursive body) (Parser.recursive body) := by
  refine ⟨fun u => ?_, fun s le => confined.noted reports le⟩
  induction size : u.length using Nat.strongRecOn generalizing u with
  | ind n ih =>
      rw [recursive_eq body (u ++ c :: v), recursive_eq body (u ++ c :: w)]
      apply (step _ _ ?_).alike
      constructor
      · intro t early
        by_cases shorter : t.length < u.length
        · have here : (t ++ c :: v).length < (u ++ c :: v).length := by simpa using shorter
          have there : (t ++ c :: w).length < (u ++ c :: w).length := by simpa using shorter
          rw [within_recursive_of_lt here] at early ⊢
          rw [within_recursive_of_lt there]
          exact ih t.length (size ▸ shorter) t rfl early
        · have here : ¬(t ++ c :: v).length < (u ++ c :: v).length := by simpa using shorter
          have there : ¬(t ++ c :: w).length < (u ++ c :: w).length := by simpa using shorter
          rw [within_recursive_of_not_lt here, within_recursive_of_not_lt there]
          exact .refused
      · intro s le
        have shorter : s.length < (u ++ c :: v).length := by
          rw [List.length_append, List.length_cons]
          omega
        rw [within_recursive_of_lt shorter]
        exact confined.noted reports le

end Local

/-! ### Single characters -/

/-- A parser for one character looks at that character only. -/
theorem ReadsOne.isLocal {p : Parser Char} {accepts : Char → Prop} (reads : ReadsOne p accepts) :
    Local c v w p p := by
  have taken {a : Char} (rest : List Char) (own : accepts a) :
      (p (a :: rest)).result = some (a, rest) := reads.result_eq_some_iff.mpr ⟨rfl, own⟩
  have refused {a : Char} (rest : List Char) (other : ¬accepts a) :
      (p (a :: rest)).result = none := by
    rw [Option.eq_none_iff_forall_ne_some]
    rintro ⟨b, tail⟩ found
    obtain ⟨same, own⟩ := reads.result_eq_some_iff.mp found
    obtain ⟨rfl, -⟩ := List.cons.inj same
    exact other own
  refine ⟨fun u _ => ?_, fun s le => reads.confined.noted reads.reports le⟩
  cases u with
  | nil =>
      by_cases own : accepts c
      · rw [List.nil_append, taken v own]
        exact .late (Nat.le_refl _)
      · rw [List.nil_append, List.nil_append, refused v own, refused w own]
        exact .refused
  | cons a u =>
      by_cases own : accepts a
      · rw [List.cons_append, List.cons_append, taken _ own, taken _ own]
        exact .early a u
      · rw [List.cons_append, List.cons_append, refused _ own, refused _ own]
        exact .refused

theorem local_oneOf (allowed : List Char) : Local c v w (oneOf allowed) (oneOf allowed) :=
  (readsOne_oneOf allowed).isLocal

theorem local_char (d : Char) : Local c v w (char d) (char d) := local_oneOf [d]

theorem local_charOtherThan (refused : Char) :
    Local c v w (charOtherThan refused) (charOtherThan refused) :=
  (readsOne_charOtherThan refused).isLocal

theorem local_chars (cs : List Char) : Local c v w (chars cs) (chars cs) := by
  induction cs with
  | nil => exact .pure ()
  | cons d cs ih => exact (local_char d).bind fun _ => ih

/-- In front of the character the text does not end. -/
theorem local_endOfInput : Local c v w endOfInput endOfInput := by
  refine ⟨fun u _ => ?_, fun s le => confined_endOfInput.noted reports_endOfInput le⟩
  cases u with
  | nil => exact .refused
  | cons d u => exact .refused

/-! ### Calls -/

theorem confined_chars (cs : List Char) : Confined (chars cs) := by
  induction cs with
  | nil => exact .pure ()
  | cons d cs ih => exact (confined_char d).bind fun _ => ih

theorem confined_doubleQuoted : Confined doubleQuoted := by
  have escape : Confined escaped := (confined_char '\\').bind fun _ => confined_oneOf _
  exact (confined_between '\x22' (escape.orElse (confined_charOtherThan '\x22'))).label _

theorem confined_equalCall : Confined equalCall :=
  ((confined_chars _).bind fun _ => (confined_char '(').padded.bind fun _ =>
    confined_doubleQuoted.padded.bind fun _ => (confined_char ',').bind fun _ =>
      confined_doubleQuoted.padded.bind fun _ => (confined_char ')').bind fun _ => .pure _).label _

theorem confined_call : Confined call := by
  apply Confined.recursive
  intro operand inside
  have operands : Confined (operands operand) :=
    (confined_char '(').padded.bind fun _ => inside.padded.bind fun _ =>
      ((confined_char ',').bind fun _ => inside.padded).many1.bind fun _ =>
        (confined_char ')').bind fun _ => .pure _
  have conjunction : Confined (andCall operand) :=
    ((confined_chars _).bind fun _ => operands.bind fun _ => .pure _).label _
  have disjunction : Confined (orCall operand) :=
    ((confined_chars _).bind fun _ => operands.bind fun _ => .pure _).label _
  exact confined_equalCall.orElse (conjunction.orElse disjunction)

theorem reports_chars (cs : List Char) : Reports (chars cs) := by
  induction cs with
  | nil => exact .pure ()
  | cons d cs ih => exact (reports_oneOf [d]).bind fun _ => ih

theorem reports_equalCall : Reports equalCall := by
  have argument : Reports doubleQuoted := (reports_between _ _).label _
  exact ((reports_chars _).bind fun _ => (reports_oneOf ['(']).padded.bind fun _ =>
    argument.padded.bind fun _ => (reports_oneOf [',']).bind fun _ =>
      argument.padded.bind fun _ => (reports_oneOf [')']).bind fun _ => .pure _).label _

/-- A text that is no call is no equality test, which leaves a note. -/
theorem reports_call : Reports call := by
  intro s refused
  rw [call, recursive_eq] at refused ⊢
  exact reports_equalCall.orElse_of_first _ s refused

theorem reports_wholeCall : Reports wholeCall :=
  reports_call.padded.bind fun _ => reports_endOfInput.bind fun _ => .pure _

theorem local_doubleQuoted : Local c v w doubleQuoted doubleQuoted := by
  have escape : Local c v w escaped escaped := (local_char '\\').bind fun _ => local_oneOf _
  exact ((local_char '\x22').bind fun _ =>
    (escape.orElse (local_charOtherThan '\x22')).many.bind fun _ =>
      (local_char '\x22').bind fun _ => .pure _).label _

theorem local_equalCall : Local c v w equalCall equalCall :=
  ((local_chars _).bind fun _ => (local_char '(').padded.bind fun _ =>
    local_doubleQuoted.padded.bind fun _ => (local_char ',').bind fun _ =>
      local_doubleQuoted.padded.bind fun _ => (local_char ')').bind fun _ => .pure _).label _

theorem local_call : Local c v w call call := by
  apply Local.recursive confined_call reports_call
  intro operand operand' inside
  have operands : Local c v w (operands operand) (operands operand') :=
    (local_char '(').padded.bind fun _ => inside.padded.bind fun _ =>
      ((local_char ',').bind fun _ => inside.padded).many1.bind fun _ =>
        (local_char ')').bind fun _ => .pure _
  have conjunction : Local c v w (andCall operand) (andCall operand') :=
    ((local_chars _).bind fun _ => operands.bind fun _ => .pure _).label _
  have disjunction : Local c v w (orCall operand) (orCall operand') :=
    ((local_chars _).bind fun _ => operands.bind fun _ => .pure _).label _
  exact local_equalCall.orElse (conjunction.orElse disjunction)

theorem local_wholeCall : Local c v w wholeCall wholeCall :=
  local_call.padded.bind fun _ => local_endOfInput.bind fun _ => .pure _

/-- A text that is no call, with the furthest note at some character, shares no beginning up to and with
that character with a call. -/
theorem wholeCall_refused {u : List Char} (refused : (wholeCall (u ++ c :: v)).result = none)
    {e : SyntaxError} (found : SyntaxError.furthest (wholeCall (u ++ c :: v)).notes = some e)
    (place : v.length < e.remaining) (w : List Char) : (wholeCall (u ++ c :: w)).result = none := by
  have early : ∀ note ∈ (wholeCall (u ++ c :: v)).notes, v.length < note.remaining :=
    fun note mem => Nat.lt_of_lt_of_le place (SyntaxError.remaining_le_of_furthest found note mem)
  have alike := (local_wholeCall (w := w)).alike u early
  rw [refused] at alike
  generalize (wholeCall (u ++ c :: w)).result = result at alike
  cases alike
  rfl

end Parser

end RecordQuery
