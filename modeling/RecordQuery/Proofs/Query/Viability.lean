import RecordQuery.Proofs.Query.NoteInvariants
import RecordQuery.Proofs.Query.Wrapping

/-!
# Viable places

A place in a text is viable if what stands in front of it can be completed to a text that is wanted there.
What is wanted in front of a construct is the construct and, behind it, what is wanted there. So a parser
that carries viability from its end to its beginning leaves all its notes at viable places, and parsers
that do are composed as their constructs are.

## Implementation notes

Names and keywords end with the character behind them. A completion that begins right behind one of them
begins with a blank, which ends the token and is taken in by the blanks behind it.
-/

namespace RecordQuery

namespace Grammar

variable {α : Type}

/-- The texts that begin with a construct and go on with one of the given texts. -/
def Before (construct : Reading α) (texts : List Char → Prop) (s : List Char) : Prop :=
  ∃ a rest, construct s a rest ∧ texts rest

/-- The texts that begin with blanks, if any, and go on with one of the given texts. -/
def BlanksBefore (texts : List Char → Prop) (s : List Char) : Prop :=
  ∃ rest, Blanks s rest ∧ texts rest

/-- A construct that can be written in front of every text. -/
def Writable (construct : Reading α) : Prop :=
  ∃ written a, ∀ rest, construct (written ++ rest) a rest

/-- Whether what stands in front of the place of a note can be completed to one of the given texts. -/
def Viable (texts : List Char → Prop) (s : List Char) (note : Note) : Prop :=
  ∃ front behind more, s = front ++ behind ∧ behind.length = note.remaining ∧
    texts (front ++ more)

variable {texts texts' : List Char → Prop} {s : List Char} {note : Note}

theorem Writable.exists_before {construct : Reading α} (writable : Writable construct)
    (some : ∃ t, texts t) : ∃ t, Before construct texts t := by
  obtain ⟨written, a, reading⟩ := writable
  obtain ⟨t, wanted⟩ := some
  exact ⟨written ++ t, a, t, reading t, wanted⟩

theorem exists_blanksBefore (some : ∃ t, texts t) : ∃ t, BlanksBefore texts t := by
  obtain ⟨t, wanted⟩ := some
  exact ⟨t, t, .refl t, wanted⟩

/-- Blanks in front of blanks are blanks. -/
theorem BlanksBefore.cons (h : BlanksBefore texts s) : BlanksBefore texts (' ' :: s) := by
  obtain ⟨rest, blanks, wanted⟩ := h
  exact ⟨rest, (blanks_space s).trans blanks, wanted⟩

/-- The place where a text begins is viable wherever any text is wanted. -/
theorem viable_of_start (some : ∃ t, texts t) (start : note.remaining = s.length) :
    Viable texts s note := by
  obtain ⟨t, wanted⟩ := some
  exact ⟨[], s, t, rfl, start.symm, wanted⟩

theorem Viable.mono (viable : Viable texts s note) (more : ∀ t, texts t → texts' t) :
    Viable texts' s note := by
  obtain ⟨front, behind, completion, split, place, wanted⟩ := viable
  exact ⟨front, behind, completion, split, place, more _ wanted⟩

/-- A viable place stays viable behind what can stand in front of all wanted texts. -/
theorem Viable.prepend (taken : List Char) (viable : Viable texts s note)
    (front : ∀ t, texts t → texts' (taken ++ t)) : Viable texts' (taken ++ s) note := by
  obtain ⟨before, behind, completion, rfl, place, wanted⟩ := viable
  refine ⟨taken ++ before, behind, completion, (List.append_assoc ..).symm, place, ?_⟩
  rw [List.append_assoc]
  exact front _ wanted

theorem Viable.of_skipBlanks (viable : Viable texts (skipBlanks s) note) :
    Viable (BlanksBefore texts) s note := by
  obtain ⟨run, blank, split⟩ := Blanks.skip s
  rw [split]
  exact viable.prepend run fun t wanted => ⟨t, ⟨run, blank, rfl⟩, wanted⟩

theorem settled_viable (texts : List Char → Prop) : Parser.Settled (Viable texts) where
  merges := by
    intro s notes e own found
    obtain ⟨note, mem, place⟩ := SyntaxError.exists_mem_of_furthest found
    obtain ⟨front, behind, completion, split, length, wanted⟩ := own note mem
    exact ⟨front, behind, completion, split, length.trans place, wanted⟩
  relabel := fun _ _ _ _ viable => viable

/-- A token that is ended by a blank and by the character that has ended it. -/
def Token (construct : Reading α) : Prop :=
  ∀ s a rest, construct s a rest → ∃ taken, s = taken ++ rest ∧
    ∀ rest', rest'.head? = rest.head? ∨ rest'.head? = some ' ' →
      construct (taken ++ rest') a rest'

/-- A place behind a token that is viable there is viable in front of the token. -/
theorem Token.viable {construct : Reading α} (token : Token construct) {a : α} {rest : List Char}
    (reading : construct s a rest) (viable : Viable (BlanksBefore texts) rest note) :
    Viable (Before construct (BlanksBefore texts)) s note := by
  obtain ⟨taken, rfl, again⟩ := token s a rest reading
  obtain ⟨front, behind, completion, rfl, place, wanted⟩ := viable
  cases front with
  | nil =>
      refine ⟨taken, behind, ' ' :: completion, rfl, place, a, _, again _ (.inr rfl), ?_⟩
      exact wanted.cons
  | cons c front =>
      refine ⟨taken ++ c :: front, behind, completion, (List.append_assoc ..).symm, place, a,
        c :: (front ++ completion), ?_, wanted⟩
      rw [List.append_assoc]
      exact again _ (.inl rfl)

theorem token_run {accepts : Char → Bool} (ends : accepts ' ' = false) :
    Token (Run accepts) := by
  intro s run rest h
  cases h with
  | intro nonempty inside behind =>
      refine ⟨run, rfl, fun rest' next => .intro nonempty inside ?_⟩
      rcases next with same | blank
      · rwa [same]
      · rw [blank]
        intro c mem
        obtain rfl := Option.some.inj mem
        exact ends

theorem token_word (k : Keyword) : Token (Word k) := by
  intro s u rest h
  cases h with
  | intro run spelled =>
      obtain ⟨taken, rfl, again⟩ := token_run (by decide) _ _ _ run
      exact ⟨taken, rfl, fun rest' next => .intro (again rest' next) spelled⟩

theorem token_quoted (delimiter : Char) : Token (Quoted delimiter) := by
  intro s value rest h
  cases h with
  | @intro written value _ body =>
      refine ⟨delimiter :: (written ++ [delimiter]), by simp, fun rest' _ => ?_⟩
      rw [List.cons_append, List.append_assoc]
      exact .intro body

theorem token_name : Token Name := by
  intro s name rest h
  cases h with
  | bare chars =>
      obtain ⟨taken, rfl, again⟩ := token_run (by decide) _ _ _ chars
      exact ⟨taken, rfl, fun rest' next => .bare (again rest' next)⟩
  | doubleQuoted quoted =>
      obtain ⟨taken, rfl, again⟩ := token_quoted _ _ _ _ quoted
      exact ⟨taken, rfl, fun rest' next => .doubleQuoted (again rest' next)⟩
  | backticks quoted =>
      obtain ⟨taken, rfl, again⟩ := token_quoted _ _ _ _ quoted
      exact ⟨taken, rfl, fun rest' next => .backticks (again rest' next)⟩

/-! ### Constructs that can be written -/

theorem writable_sign (c : Char) : Writable (Sign c) := ⟨[c], (), fun _ => .intro⟩

theorem writable_quoted (delimiter : Char) : Writable (Quoted delimiter) :=
  ⟨[delimiter, delimiter], String.ofList [], fun _ => .intro .nil⟩

theorem Writable.padded {construct : Reading α} (writable : Writable construct) :
    Writable (Padded construct) := by
  obtain ⟨written, a, reading⟩ := writable
  exact ⟨written, a, fun rest => .intro (.refl _) (reading rest) (.refl _)⟩

theorem writable_name : Writable Name := by
  obtain ⟨written, name, reading⟩ := writable_quoted '\x22'
  exact ⟨written, name, fun rest => .doubleQuoted (reading rest)⟩

theorem writable_keyword (k : Keyword) : Writable (Padded (Word k)) := by
  refine ⟨k.text.toList ++ [' '], (), fun rest => ?_⟩
  rw [List.append_assoc]
  exact word_text k rest

end Grammar

namespace Parser

open Grammar

variable {α β : Type} {texts : List Char → Prop}

/-- The parser carries viability over its construct, whatever is wanted behind it. -/
def Tracks (construct : Reading α) (p : Parser β) : Prop :=
  ∀ texts, (∃ t, texts t) → Carries p (Viable (Before construct texts)) (Viable texts)

namespace Tracks

theorem label {construct : Reading α} {p : Parser β} (l : Construct) (inside : Tracks construct p) :
    Tracks construct (Parser.label l p) :=
  fun texts some => (inside texts some).label l (settled_viable _)

/-- It is enough that a padded parser tracks its construct in front of blanks. -/
theorem padded_of_blanks {construct : Reading α} {p : Parser β}
    (inside : ∀ texts, (∃ t, texts t) →
      Carries p (Viable (Before construct (BlanksBefore texts))) (Viable (BlanksBefore texts))) :
    Tracks (Padded construct) (padded p) := by
  intro texts some
  apply (inside texts some).padded
  · intro s note viable
    apply viable.of_skipBlanks.mono
    rintro t ⟨u, before, a, v, reading, w, after, wanted⟩
    exact ⟨a, w, .intro before reading after, wanted⟩
  · intro s note viable
    exact viable.of_skipBlanks

theorem padded {construct : Reading α} {p : Parser β} (inside : Tracks construct p) :
    Tracks (Padded construct) (Parser.padded p) :=
  padded_of_blanks fun _ some => inside _ (exists_blanksBefore some)

/-- A link and an item behind it. -/
theorem behind {link : Reading Unit} {item : Reading α} {p : Parser β} {q : Parser α}
    (first : Tracks link p) (second : Tracks item q) (writable : Writable item) :
    Tracks (Behind link item) (p >>= fun _ => q) := by
  intro texts some
  apply ((first _ (writable.exists_before some)).bind fun _ => second texts some).mono
  · intro s note viable
    apply viable.mono
    rintro t ⟨_, u, linked, a, v, reading, wanted⟩
    exact ⟨a, v, ⟨u, linked, reading⟩, wanted⟩
  · exact fun _ _ => id

/-- A repetition of items behind links: behind an item another one is wanted, or what is wanted behind
them all. -/
theorem many1_chain {link : Reading Unit} {item : Reading α} {q : Parser α}
    (each : Tracks (Behind link item) q) : Tracks (Chain link item) (many1 q) := by
  intro texts some
  let next : List Char → Prop := fun t => texts t ∨ Before (Chain link item) texts t
  have more : ∀ t, Before (Behind link item) next t → Before (Chain link item) texts t := by
    rintro t ⟨a, v, ⟨u, linked, reading⟩, wanted | ⟨as, w, others, wanted⟩⟩
    · exact ⟨[a], v, .one linked reading, wanted⟩
    · exact ⟨a :: as, w, .more linked reading others, wanted⟩
  obtain ⟨t, wanted⟩ := some
  have first : Carries q (Viable (Before (Chain link item) texts)) (Viable next) :=
    (each next ⟨t, .inl wanted⟩).mono (fun _ _ viable => viable.mono more) fun _ _ => id
  have again : Carries q (Viable next) (Viable next) :=
    first.mono (fun _ _ viable => viable.mono fun _ => .inr) fun _ _ => id
  exact (first.many1 again).mono (fun _ _ => id) fun _ _ viable => viable.mono fun _ => .inl

end Tracks

/-! ### Signs and keywords -/

theorem tracks_char (c : Char) : Tracks (Sign c) (char c) := by
  intro texts some
  apply (stopsAtStart_oneOf [c]).carries
  · intro s note _ start
    exact viable_of_start ((writable_sign c).exists_before some) start
  · intro s d rest found note viable
    obtain ⟨rfl, -⟩ := char_result_eq_some_iff.mp found
    exact viable.prepend [c] fun t wanted => ⟨(), t, .intro, wanted⟩

theorem writable_letters (cs : List Char) : Writable (Letters cs) := ⟨cs, (), fun _ => .intro⟩

theorem tracks_chars (cs : List Char) : Tracks (Letters cs) (chars cs) := by
  induction cs with
  | nil =>
      intro texts some
      apply (Carries.pure ()).mono ?_ fun _ _ => id
      intro s note viable
      exact viable.mono fun t wanted => ⟨(), t, .intro, wanted⟩
  | cons c cs ih =>
      intro texts some
      apply ((tracks_char c _ ((writable_letters cs).exists_before some)).bind
        fun _ => ih texts some).mono ?_ fun _ _ => id
      intro s note viable
      apply viable.mono
      rintro t ⟨_, _, ⟨⟩, _, _, ⟨⟩, wanted⟩
      exact ⟨(), _, .intro, wanted⟩

theorem tracks_keyword (k : Keyword) : Tracks (Padded (Word k)) (keyword k) := by
  apply Tracks.padded_of_blanks
  intro texts some
  obtain ⟨t, wanted⟩ := some
  have written : ∃ s, Before (Word k) (BlanksBefore texts) s :=
    ⟨_, (), _, word_spelled k t, t, blanks_space t, wanted⟩
  apply carries_word (settled_viable _).merges
  · intro s known note mem
    have place := remaining_of_mem_run note mem
    rcases known with spelled | missing
    · -- Behind the letters of the keyword a blank completes it.
      obtain ⟨taken, split, again⟩ := token_word k s () (s.dropWhile isAlphabetic)
        (word_reads.mp (word_result_eq_some_iff.mpr ⟨spelled, rfl⟩))
      exact ⟨taken, _, ' ' :: t, split, place.symm, (), _, again _ (.inr rfl), t, blanks_space t,
        wanted⟩
    · have whole : s.takeWhile isAlphabetic ++ s.dropWhile isAlphabetic = s :=
        List.takeWhile_append_dropWhile
      rw [missing, List.nil_append] at whole
      rw [whole] at place
      exact viable_of_start written place
  · exact fun s => viable_of_start written rfl
  · intro s rest found note viable
    exact (token_word k).viable (word_reads.mp found) viable

/-! ### Names and literals -/

/-- The texts that begin with a body in front of a delimiter and go on with one of the given texts. -/
def BodyBefore (body : List Char → List Char → Prop) (delimiter : Char)
    (texts : List Char → Prop) (s : List Char) : Prop :=
  ∃ written value rest, body written value ∧ s = written ++ delimiter :: rest ∧ texts rest

/-- A delimited string whose items carry viability over the bodies. -/
theorem tracks_between {construct : Reading String} {item : Parser Char} {delimiter : Char}
    {body : List Char → List Char → Prop} (empty : body [] [])
    (whole : ∀ written value rest, body written value →
      construct (delimiter :: (written ++ delimiter :: rest)) (String.ofList value) rest)
    (each : ∀ texts, (∃ t, texts t) →
      Carries item (Viable (BodyBefore body delimiter texts))
        (Viable (BodyBefore body delimiter texts))) :
    Tracks construct (between delimiter item) := by
  intro texts some
  have closed : ∀ t, Before (Sign delimiter) texts t → BodyBefore body delimiter texts t := by
    rintro t ⟨_, rest, ⟨⟩, wanted⟩
    exact ⟨[], [], rest, empty, rfl, wanted⟩
  have opened : ∀ t, Before (Sign delimiter) (BodyBefore body delimiter texts) t →
      Before construct texts t := by
    rintro t ⟨_, _, ⟨⟩, written, value, rest, inside, rfl, wanted⟩
    exact ⟨_, rest, whole written value rest inside, wanted⟩
  have bodies : ∃ t, BodyBefore body delimiter texts t := by
    obtain ⟨t, wanted⟩ := (writable_sign delimiter).exists_before some
    exact ⟨t, closed t wanted⟩
  have opening := (tracks_char delimiter _ bodies).mono
    (fun s note viable => viable.mono opened) fun _ _ => id
  have closing := (tracks_char delimiter texts some).mono
    (fun s note viable => viable.mono closed) fun _ _ => id
  exact opening.bind fun _ => (each texts some).many.bind fun _ => closing.bind fun _ => .pure _

/-- One character of a delimited string. -/
theorem viable_doubledOr {plain : Parser Char} {accepts : Char → Prop} {delimiter : Char}
    (reads : ReadsOne plain accepts) (other : ∀ c, accepts c → c ≠ delimiter)
    (some : ∃ t, texts t) :
    Carries (doubled delimiter <|> plain)
      (Viable (BodyBefore (Doubling delimiter) delimiter texts))
      (Viable (BodyBefore (Doubling delimiter) delimiter texts)) := by
  obtain ⟨t, wanted⟩ := some
  have bodies : ∃ t, BodyBefore (Doubling delimiter) delimiter texts t :=
    ⟨_, [], [], t, .nil, rfl, wanted⟩
  apply Carries.orElse
  · apply ((tracks_char delimiter _ ((writable_sign delimiter).exists_before bodies)).bind
      fun _ => tracks_char delimiter _ bodies).mono ?_ fun _ _ => id
    intro s note viable
    apply viable.mono
    rintro t ⟨_, _, ⟨⟩, _, _, ⟨⟩, written, value, rest, body, rfl, wanted⟩
    exact ⟨_, _, rest, body.doubled, rfl, wanted⟩
  · apply reads.stopsAtStart.carries
    · exact fun s note _ start => viable_of_start bodies start
    · intro s c rest found note viable
      obtain ⟨rfl, own⟩ := reads.result_eq_some_iff.mp found
      apply viable.prepend [c]
      rintro t ⟨written, value, rest, body, rfl, wanted⟩
      exact ⟨_, _, rest, body.plain (other c own), rfl, wanted⟩

theorem tracks_delimitedName (delimiter : Char) :
    Tracks (Quoted delimiter) (delimitedName delimiter) := by
  apply tracks_between .nil fun _ _ _ body => .intro body
  exact fun texts some => viable_doubledOr (readsOne_charWhere _) (by simp) some

theorem tracks_singleQuoted : Tracks Literal singleQuoted := by
  apply Tracks.label
  apply tracks_between .nil fun _ _ _ body => .intro body
  exact fun texts some => viable_doubledOr (readsOne_charOtherThan _) (fun _ other => other) some

/-- A bare name can be completed by a letter. -/
theorem viable_bareName (some : ∃ t, texts t) :
    Carries bareName (Viable (Before Name (BlanksBefore texts))) (Viable (BlanksBefore texts)) := by
  obtain ⟨t, wanted⟩ := some
  have run : Carries (many1 (charWhere isNameChar))
      (Viable (Before Name (BlanksBefore texts))) (Viable (BlanksBefore texts)) := by
    intro s
    constructor
    · intro note mem
      refine ⟨s.takeWhile isNameChar, s.dropWhile isNameChar, 'a' :: ' ' :: t,
        List.takeWhile_append_dropWhile.symm, (remaining_of_mem_run note mem).symm, ?_⟩
      have inside : ∀ c ∈ s.takeWhile isNameChar ++ ['a'], isNameChar c = true := by
        intro c mem
        rcases List.mem_append.mp mem with early | last
        · exact List.all_eq_true.mp List.all_takeWhile c early
        · rw [List.mem_singleton.mp last]
          decide
      have name : Run isNameChar ((s.takeWhile isNameChar ++ ['a']) ++ ' ' :: t)
          (s.takeWhile isNameChar ++ ['a']) (' ' :: t) := by
        refine .intro (by simp) inside ?_
        intro c head
        obtain rfl := Option.some.inj head
        decide
      rw [List.append_assoc] at name
      exact ⟨_, _, .bare name, t, blanks_space t, wanted⟩
    · intro run rest found note viable
      rw [many1_charWhere_result] at found
      split at found
      · cases found
      · rename_i nonempty
        obtain ⟨rfl, rfl⟩ := Prod.mk.inj (Option.some.inj found)
        exact token_name.viable (.bare (run_iff.mpr ⟨nonempty, rfl, rfl⟩)) viable
  exact (run.bind fun _ => .pure _).label _ (settled_viable _)

theorem tracks_padded_fieldName : Tracks (Padded Name) (padded fieldName) := by
  apply Tracks.padded_of_blanks
  intro texts some
  have wanted := exists_blanksBefore some
  have doubleQuoted : Carries (delimitedName '\x22')
      (Viable (Before Name (BlanksBefore texts))) (Viable (BlanksBefore texts)) :=
    (tracks_delimitedName '\x22' _ wanted).mono
      (fun s note viable => viable.mono fun t ⟨name, rest, quoted, more⟩ =>
        ⟨name, rest, .doubleQuoted quoted, more⟩) fun _ _ => id
  have backticks : Carries (delimitedName '\x60')
      (Viable (Before Name (BlanksBefore texts))) (Viable (BlanksBefore texts)) :=
    (tracks_delimitedName '\x60' _ wanted).mono
      (fun s note viable => viable.mono fun t ⟨name, rest, quoted, more⟩ =>
        ⟨name, rest, .backticks quoted, more⟩) fun _ _ => id
  exact ((viable_bareName some).orElse (doubleQuoted.orElse backticks)).label _
    (settled_viable _)

end Parser

end RecordQuery
