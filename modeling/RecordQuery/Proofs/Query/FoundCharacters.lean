import RecordQuery.Query.Call
import RecordQuery.Proofs.Query.NoteInvariants

/-!
# Found characters

The character that an error names as the one found is the character at its place, and an error names the
end of the text only there. A misspelt keyword names no character; put down to a construct as a whole it
would claim the end of the text, but no construct with a name of its own begins with a keyword.
-/

namespace RecordQuery

/-- Whether a note names the character at its place in a text, where the condition on keywords may depend
on the text and on what stands behind that place. -/
def Told (misspelt : List Char → List Char → Prop) (s : List Char) (note : Note) : Prop :=
  ∃ behind, behind <:+ s ∧ behind.length = note.remaining ∧
    note.Names behind.head? (misspelt s behind)

/-- Whether a note names the character at its place in a text. -/
abbrev Faithful : List Char → Note → Prop := Told fun _ _ => True

/-- Whether a note names the character at its place in a text and is not about a keyword with which the
text begins. -/
abbrev FaithfulInside : List Char → Note → Prop := Told fun s behind => behind ≠ s

theorem Note.Names.imp {found? : Option Char} {m m' : Prop} (h : m → m') {note : Note}
    (names : note.Names found? m) : note.Names found? m' := by
  cases note with
  | stopped remaining items found => exact names
  | raised e =>
      obtain ⟨remaining, reason⟩ := e
      cases reason with
      | expected items found => exact names
      | keyword k => exact h names

/-- A note that is told in the rest of a text is told in the text. -/
theorem Told.of_suffix {m m' : List Char → List Char → Prop} {s rest : List Char} {note : Note}
    (told : Told m rest note) (suffix : rest <:+ s)
    (imp : ∀ behind, behind <:+ rest → m rest behind → m' s behind) : Told m' s note := by
  obtain ⟨behind, inside, place, names⟩ := told
  exact ⟨behind, inside.trans suffix, place, names.imp (imp behind inside)⟩

theorem FaithfulInside.faithful {s : List Char} {note : Note} (told : FaithfulInside s note) :
    Faithful s note :=
  Told.of_suffix told (List.suffix_refl s) fun _ _ _ => trivial

theorem Faithful.of_suffix {s rest : List Char} {note : Note} (told : Faithful rest note)
    (suffix : rest <:+ s) : Faithful s note :=
  Told.of_suffix told suffix fun _ _ _ => trivial

/-- What is told behind the beginning of a text is told inside it. -/
theorem Faithful.inside {s rest : List Char} {note : Note} (told : Faithful rest note)
    (suffix : rest <:+ s) (shorter : rest.length < s.length) : FaithfulInside s note := by
  apply Told.of_suffix told suffix
  rintro behind inside - rfl
  exact absurd inside.length_le (Nat.not_le.mpr shorter)

namespace SyntaxError

/-- What holds of the errors of single notes and is kept by every further note holds of the error that
the notes amount to. -/
theorem furthest_induction {P : SyntaxError → Prop} {notes : List Note}
    (first : ∀ note ∈ notes, ∀ e, follow none note = some e → P e)
    (next : ∀ note ∈ notes, ∀ e e', P e → follow (some e) note = some e' → P e')
    {e : SyntaxError} (found : furthest notes = some e) : P e := by
  have all (current : Option SyntaxError) (own : ∀ e, current = some e → P e) (more : List Note)
      (sub : ∀ note ∈ more, note ∈ notes) (e : SyntaxError)
      (result : more.foldl follow current = some e) : P e := by
    induction more generalizing current with
    | nil => exact own e result
    | cons note rest ih =>
        apply ih (follow current note) ?_ (fun other mem => sub other (List.mem_cons_of_mem _ mem))
          result
        intro e' step
        have mem := sub note (List.mem_cons_self ..)
        cases current with
        | none => exact first note mem e' step
        | some e => exact next note mem e e' (own e rfl) step
  exact all none (fun _ start => nomatch start) notes (fun _ => id) e found

end SyntaxError

namespace Parser

open SyntaxError

variable {α β : Type} {m : List Char → List Char → Prop}

/-- Notes at one place of a text are told of the same character. -/
theorem exists_told {s : List Char} {note other : Note} (told : Told m s note)
    (told' : Told m s other) (place : other.remaining = note.remaining) :
    ∃ behind, behind <:+ s ∧ behind.length = note.remaining ∧
      note.Names behind.head? (m s behind) ∧ other.Names behind.head? (m s behind) := by
  obtain ⟨behind, suffix, length, names⟩ := told
  obtain ⟨behind', suffix', length', names'⟩ := told'
  have same : behind' = behind :=
    (List.suffix_of_suffix_length_le suffix' suffix (by omega)).eq_of_length (by omega)
  subst same
  exact ⟨behind', suffix, length, names, names'⟩

/-- Two errors that are told at one place are merged to one that is. -/
theorem told_merge {s : List Char} {e other : SyntaxError} (told : Told m s (.raised e))
    (told' : Told m s (.raised other)) (place : other.remaining = e.remaining) :
    Told m s (.raised (e.merge other.reason)) := by
  obtain ⟨behind, suffix, length, names, names'⟩ := exists_told told told' place
  obtain ⟨remaining, reason⟩ := e
  obtain ⟨remaining', reason'⟩ := other
  refine ⟨behind, suffix, length.trans (remaining_merge ..).symm, ?_⟩
  cases reason with
  | keyword k => exact names
  | expected items found =>
      cases reason' with
      | keyword k => exact names'
      | expected more found' => exact names

/-- An error stays told when a character that is told stops a reading at its place. -/
theorem told_follow_stopped {s : List Char} {e e' : SyntaxError} {remaining : Nat}
    {items : List Expectation} {found : Option Char} (told : Told m s (.raised e))
    (told' : Told m s (.stopped remaining items found)) (place : remaining = e.remaining)
    (step : follow (some e) (.stopped remaining items found) = some e') :
    Told m s (.raised e') := by
  obtain ⟨behind, suffix, length, names, names'⟩ := exists_told told told' place
  obtain ⟨own, reason⟩ := e
  change remaining = own at place
  subst place
  simp only [follow, Nat.lt_irrefl, if_false, if_true] at step
  cases reason with
  | keyword k =>
      obtain rfl := Option.some.inj step
      exact told
  | expected known old =>
      obtain rfl := Option.some.inj step
      refine ⟨behind, suffix, length, ?_⟩
      change old = _ at names
      change found = _ at names'
      change old.or found = _
      rw [names, names', Option.or_self]

/-- Merging keeps what is told. -/
theorem merges_told (m : List Char → List Char → Prop) : Merges (Told m) := by
  intro s notes e own found
  have single (note : Note) (mem : note ∈ notes) (e : SyntaxError)
      (step : follow none note = some e) : Told m s (.raised e) := by
    have told := own note mem
    cases note with
    | stopped remaining items found =>
        obtain rfl := Option.some.inj step
        exact told
    | raised e' =>
        obtain rfl := Option.some.inj step
        exact told
  apply furthest_induction (P := fun e => Told m s (.raised e)) single ?_ found
  intro note mem e e' told step
  by_cases further : note.remaining < e.remaining
  · rw [follow_of_lt further] at step
    exact single note mem e' step
  · by_cases place : note.remaining = e.remaining
    · cases note with
      | stopped remaining items found =>
          exact told_follow_stopped told (own _ mem) place step
      | raised other =>
          change other.remaining = e.remaining at place
          simp only [follow, place, Nat.lt_irrefl, if_false, if_true] at step
          obtain rfl := Option.some.inj step
          exact told_merge told (own _ mem) place
    · rw [follow_of_gt (by omega)] at step
      obtain rfl := Option.some.inj step
      exact told

/-- A construct that does not begin with a keyword finds the character at its beginning. -/
theorem settled_faithfulInside : Settled FaithfulInside where
  merges := merges_told _
  relabel := by
    rintro s ⟨remaining, reason⟩ l start ⟨behind, suffix, length, names⟩
    refine ⟨behind, suffix, length, ?_⟩
    cases reason with
    | expected items found => exact names
    | keyword k => exact absurd (suffix.eq_of_length (length.trans start)) names

/-! ### Tokens -/

theorem ReadsOne.faithful {p : Parser Char} {accepts : Char → Prop} (reads : ReadsOne p accepts) :
    Carries p FaithfulInside Faithful := by
  intro s
  constructor
  · intro note mem
    obtain ⟨place, names⟩ := reads.of_mem mem
    exact ⟨s, List.suffix_refl s, place.symm, names.imp False.elim⟩
  · intro c rest found note told
    obtain ⟨rfl, -⟩ := reads.result_eq_some_iff.mp found
    exact Faithful.inside told (List.suffix_cons c rest) (Nat.lt_succ_self _)

theorem faithful_charWhere (accepts : Char → Bool) :
    Carries (charWhere accepts) FaithfulInside Faithful := (readsOne_charWhere accepts).faithful

theorem faithful_oneOf (allowed : List Char) :
    Carries (oneOf allowed) FaithfulInside Faithful := (readsOne_oneOf allowed).faithful

theorem faithful_char (c : Char) : Carries (char c) FaithfulInside Faithful := faithful_oneOf [c]

theorem faithful_charOtherThan (refused : Char) :
    Carries (charOtherThan refused) FaithfulInside Faithful :=
  (readsOne_charOtherThan refused).faithful

namespace Carries

variable {p : Parser α}

/-- Notes inside a text are notes in it. -/
theorem loosen (inside : Carries p FaithfulInside Faithful) : Carries p Faithful Faithful :=
  inside.mono (fun _ _ => FaithfulInside.faithful) fun _ _ => id

theorem padded_faithful (inside : Carries p Faithful Faithful) :
    Carries (Parser.padded p) Faithful Faithful :=
  inside.padded (fun _ _ told => Faithful.of_suffix told (List.dropWhile_suffix isBlank))
    fun _ _ told => Faithful.of_suffix told (List.dropWhile_suffix isBlank)

theorem padded_inside (inside : Carries p FaithfulInside Faithful) :
    Carries (Parser.padded p) FaithfulInside Faithful := by
  apply inside.padded
  · intro s note told
    apply Told.of_suffix told (List.dropWhile_suffix isBlank)
    rintro behind suffix other rfl
    exact other (suffix.eq_of_length_le (List.dropWhile_suffix isBlank).length_le)
  · exact fun _ _ told => Faithful.of_suffix told (List.dropWhile_suffix isBlank)

theorem label_inside (l : Construct) (inside : Carries p FaithfulInside Faithful) :
    Carries (Parser.label l p) FaithfulInside Faithful :=
  inside.label l settled_faithfulInside

end Carries

theorem faithful_doubled (delimiter : Char) :
    Carries (doubled delimiter) FaithfulInside Faithful :=
  (faithful_char delimiter).bind fun _ => (faithful_char delimiter).loosen

/-- Items between delimiters, as names and literals have them. -/
theorem faithful_between {item : Parser Char} (delimiter : Char)
    (each : Carries item FaithfulInside Faithful) :
    Carries (between delimiter item) FaithfulInside Faithful :=
  (faithful_char delimiter).bind fun _ => each.loosen.many.bind fun _ =>
    (faithful_char delimiter).loosen.bind fun _ => .pure _

theorem faithful_delimitedName (delimiter : Char) :
    Carries (delimitedName delimiter) FaithfulInside Faithful :=
  faithful_between delimiter ((faithful_doubled delimiter).orElse (faithful_charWhere _))

theorem faithful_fieldName : Carries fieldName FaithfulInside Faithful := by
  have run := (faithful_charWhere isNameChar).many1 (faithful_charWhere isNameChar).loosen
  have bare : Carries bareName FaithfulInside Faithful := (run.bind fun _ => .pure _).label_inside _
  exact (bare.orElse ((faithful_delimitedName _).orElse (faithful_delimitedName _))).label_inside _

theorem faithful_singleQuoted : Carries singleQuoted FaithfulInside Faithful :=
  (faithful_between '\x27'
    ((faithful_doubled '\x27').orElse (faithful_charOtherThan '\x27'))).label_inside _

theorem faithful_doubleQuoted : Carries doubleQuoted FaithfulInside Faithful := by
  have escape : Carries escaped FaithfulInside Faithful :=
    (faithful_char '\\').bind fun _ => (faithful_oneOf _).loosen
  exact (faithful_between '\x22' (escape.orElse (faithful_charOtherThan '\x22'))).label_inside _

theorem faithful_keyword (k : Keyword) : Carries (keyword k) Faithful Faithful := by
  have run := (faithful_charWhere isAlphabetic).many1 (faithful_charWhere isAlphabetic).loosen
  apply Carries.padded_faithful
  apply carries_word (merges_told _)
  · exact fun s _ note mem => FaithfulInside.faithful ((run s).of_mem note mem)
  · exact fun s => ⟨s, List.suffix_refl s, rfl, trivial⟩
  · intro s rest found note told
    obtain ⟨-, rfl⟩ := word_result_eq_some_iff.mp found
    exact Faithful.of_suffix told (List.dropWhile_suffix isAlphabetic)

theorem faithful_endOfInput : Carries endOfInput Faithful Faithful := by
  intro s
  constructor
  · intro note mem
    cases s with
    | nil => cases mem
    | cons c rest =>
        rw [List.mem_singleton.mp mem]
        exact ⟨c :: rest, List.suffix_refl _, rfl, rfl⟩
  · intro u rest found note told
    obtain ⟨rfl, rfl⟩ := endOfInput_result_eq_some_iff.mp found
    exact told

/-! ### Whole texts -/

theorem faithful_comparison : Carries comparison FaithfulInside Faithful :=
  (faithful_fieldName.padded_inside.bind fun _ => (faithful_char '=').loosen.padded_faithful.bind
    fun _ => faithful_singleQuoted.loosen.padded_faithful.bind fun _ => .pure _).label_inside _

theorem faithful_group {operand : Parser Predicate} (inside : Carries operand Faithful Faithful) :
    Carries (group operand) FaithfulInside Faithful := by
  have further (k : Keyword) : Carries (furtherOperands k operand) Faithful Faithful :=
    Carries.many1 ((faithful_keyword k).bind fun _ => inside) ((faithful_keyword k).bind fun _ => inside)
  have tail : Carries (optional (groupTail operand)) Faithful Faithful :=
    (((further .andWord).bind fun _ => .pure _).orElse
      ((further .orWord).bind fun _ => .pure _)).optional fun _ _ => id
  exact ((faithful_char '(').padded_inside.bind fun _ => inside.bind fun _ => tail.bind fun _ =>
    (faithful_char ')').loosen.padded_faithful.bind fun _ => .pure _).label_inside _

theorem faithful_predicate : Carries predicate FaithfulInside Faithful := by
  have carries : ∀ _ : Unit, Carries predicate FaithfulInside Faithful := by
    apply Carries.recursive
    exact fun operand inside u => (faithful_group (inside u).loosen).orElse faithful_comparison
  exact carries ()

theorem faithful_barePredicate : Carries barePredicate Faithful Faithful :=
  faithful_predicate.loosen.padded_faithful.bind fun _ =>
    faithful_endOfInput.bind fun _ => .pure _

theorem faithful_statement : Carries statement Faithful Faithful :=
  (faithful_keyword .selectWord).bind fun _ =>
    (faithful_char '*').loosen.padded_faithful.bind fun _ =>
      (faithful_keyword .fromWord).bind fun _ =>
        (faithful_fieldName.padded_inside.label_inside .collectionName).loosen.bind fun _ =>
          (faithful_keyword .whereWord).bind fun _ => faithful_predicate.loosen.bind fun _ =>
            faithful_endOfInput.bind fun _ => .pure _

theorem faithful_chars (c : Char) (cs : List Char) :
    Carries (chars (c :: cs)) FaithfulInside Faithful := by
  have behind : Carries (chars cs) Faithful Faithful := by
    induction cs with
    | nil => exact .pure ()
    | cons d cs ih => exact (faithful_char d).loosen.bind fun _ => ih
  exact (faithful_char c).bind fun _ => behind

theorem faithful_equalCall : Carries equalCall FaithfulInside Faithful :=
  ((faithful_chars _ _).bind fun _ => (faithful_char '(').loosen.padded_faithful.bind fun _ =>
    faithful_doubleQuoted.loosen.padded_faithful.bind fun _ => (faithful_char ',').loosen.bind fun _ =>
      faithful_doubleQuoted.loosen.padded_faithful.bind fun _ =>
        (faithful_char ')').loosen.bind fun _ => .pure _).label_inside _

theorem faithful_operands {operand : Parser Predicate} (inside : Carries operand Faithful Faithful) :
    Carries (operands operand) Faithful Faithful := by
  have further : Carries (char ',' >>= fun _ => padded operand) Faithful Faithful :=
    (faithful_char ',').loosen.bind fun _ => inside.padded_faithful
  exact (faithful_char '(').loosen.padded_faithful.bind fun _ => inside.padded_faithful.bind fun _ =>
    (further.many1 further).bind fun _ => (faithful_char ')').loosen.bind fun _ => .pure _

theorem faithful_call : Carries call FaithfulInside Faithful := by
  have carries : ∀ _ : Unit, Carries call FaithfulInside Faithful := by
    apply Carries.recursive
    intro operand inside u
    have operands := faithful_operands (inside u).loosen
    have conjunction : Carries (andCall operand) FaithfulInside Faithful :=
      ((faithful_chars _ _).bind fun _ => operands.bind fun _ => .pure _).label_inside _
    have disjunction : Carries (orCall operand) FaithfulInside Faithful :=
      ((faithful_chars _ _).bind fun _ => operands.bind fun _ => .pure _).label_inside _
    exact faithful_equalCall.orElse (conjunction.orElse disjunction)
  exact carries ()

theorem faithful_wholeCall : Carries wholeCall Faithful Faithful :=
  faithful_call.loosen.padded_faithful.bind fun _ => faithful_endOfInput.bind fun _ => .pure _

end Parser

end RecordQuery
