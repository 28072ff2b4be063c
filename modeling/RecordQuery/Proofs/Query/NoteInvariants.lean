import RecordQuery.Proofs.Query.Places

/-!
# Invariants of notes

What holds of all notes of a reading is proved part by part, with a property of notes for every place
between two parts. A parser carries such a property to its front if its own notes have it there and notes
that have the property behind the parser have it in front of the parser too. Parsers that fit together
carry a property through their composition.
-/

namespace RecordQuery

/-- Whether the notes of an outcome have a property, and with them all notes that have another one in
the rest. -/
structure Outcome.Carries {α : Type} (o : Outcome α) (before : Note → Prop)
    (after : List Char → Note → Prop) : Prop where
  of_mem : ∀ note ∈ o.notes, before note
  of_rest : ∀ a rest, o.result = some (a, rest) → ∀ note, after rest note → before note

namespace Parser

variable {α β : Type} {V W U : List Char → Note → Prop}

/-- Whether a parser carries a property of notes behind it to one in front of it. -/
def Carries (p : Parser α) (before after : List Char → Note → Prop) : Prop :=
  ∀ s, (p s).Carries (before s) after

/-- A property that passes from all notes to the error that they amount to. -/
def Merges (V : List Char → Note → Prop) : Prop :=
  ∀ s notes e, (∀ note ∈ notes, V s note) → SyntaxError.furthest notes = some e → V s (.raised e)

/-- A property that passes to merged errors, also where an error is put down to a construct as a whole. -/
structure Settled (V : List Char → Note → Prop) : Prop where
  merges : Merges V
  relabel : ∀ s e l, e.remaining = s.length → V s (.raised e) →
    V s (.raised ⟨e.remaining, e.reason.relabel l⟩)

namespace Carries

/-- A parser that refuses nothing and takes nothing. -/
theorem pure (a : α) : Carries (Pure.pure a : Parser α) V V := by
  intro s
  constructor
  · intro note mem
    cases mem
  · intro b rest found note own
    obtain ⟨-, rfl⟩ := Prod.mk.inj (Option.some.inj found)
    exact own

theorem mono {V' W' : List Char → Note → Prop} {p : Parser α} (carries : Carries p V W)
    (front : ∀ s note, V s note → V' s note) (back : ∀ s note, W' s note → W s note) :
    Carries p V' W' := by
  intro s
  constructor
  · intro note mem
    exact front s note ((carries s).of_mem note mem)
  · intro a rest found note own
    exact front s note ((carries s).of_rest a rest found note (back rest note own))

theorem bind {p : Parser α} {f : α → Parser β} (first : Carries p V W)
    (next : ∀ a, Carries (f a) W U) : Carries (p >>= f) V U := by
  intro s
  constructor
  · intro note mem
    rcases mem_bind_notes.mp mem with mem | ⟨a, rest, start, mem⟩
    · exact (first s).of_mem note mem
    · exact (first s).of_rest a rest start note ((next a rest).of_mem note mem)
  · intro b rest found note own
    obtain ⟨a, t, start, inside⟩ := bind_result_eq_some_iff.mp found
    exact (first s).of_rest a t start note ((next a t).of_rest b rest inside note own)

/-- The second alternative matters only where the first one fails. -/
theorem orElse_of_none {p q : Parser α} (first : Carries p V W)
    (second : ∀ s, (p s).result = none → (q s).Carries (V s) W) : Carries (p <|> q) V W := by
  intro s
  constructor
  · intro note mem
    rcases mem_orElse_notes.mp mem with mem | ⟨refused, mem⟩
    · exact (first s).of_mem note mem
    · exact (second s refused).of_mem note mem
  · intro a rest found note own
    rw [orElse_result, Option.or_eq_some_iff] at found
    rcases found with found | ⟨refused, found⟩
    · exact (first s).of_rest a rest found note own
    · exact (second s refused).of_rest a rest found note own

theorem orElse {p q : Parser α} (first : Carries p V W) (second : Carries q V W) :
    Carries (p <|> q) V W :=
  first.orElse_of_none fun s _ => second s

/-- A repetition carries what its item carries. -/
theorem many {p : Parser α} (item : Carries p V V) :
    Carries (α := List α) (Parser.many p) V V := by
  intro s
  constructor
  · intro note mem
    exact many_note_induction (motive := fun s => V s note) (fun s own => (item s).of_mem note own)
      (fun s a t start inside => (item s).of_rest a t start note inside) mem
  · intro as rest found note own
    exact many_rest_induction (motive := fun s rest => V rest note → V s note) (fun _ => id)
      (fun s a t _ start inside own => (item s).of_rest a t start note (inside own)) found own

theorem many1 {p : Parser α} (first : Carries p V W) (item : Carries p W W) :
    Carries (Parser.many1 p) V W :=
  first.bind fun _ => item.many.bind fun _ => pure _

theorem optional {p : Parser α} (item : Carries p V W) (left : ∀ s note, W s note → V s note) :
    Carries (Parser.optional p) V W := by
  have nothing : Carries (succeed (none : Option α)) V W := (pure none).mono (fun _ _ => id) left
  exact (item.bind fun _ => pure _).orElse nothing

/-- A parser between blanks, with the properties in front of the blanks and behind them. -/
theorem padded {V' W' : List Char → Note → Prop} {p : Parser α} (inside : Carries p V W)
    (front : ∀ s note, V (skipBlanks s) note → V' s note)
    (back : ∀ s note, W' (skipBlanks s) note → W s note) : Carries (Parser.padded p) V' W' := by
  intro s
  constructor
  · intro note mem
    rw [padded_notes] at mem
    exact front s note ((inside _).of_mem note mem)
  · intro a rest found note own
    obtain ⟨t, start, rfl⟩ := padded_result_eq_some_iff.mp found
    exact front s note ((inside _).of_rest a t start note (back t note own))

theorem label {p : Parser α} (l : Construct) (settled : Settled V) (inside : Carries p V W) :
    Carries (Parser.label l p) V W := by
  intro s
  constructor
  · intro note mem
    obtain ⟨e, found, rfl⟩ := Option.map_eq_some_iff.mp (Option.mem_toList.mp mem)
    have own := settled.merges s _ e (inside s).of_mem found
    split
    · rename_i start
      exact settled.relabel s e l start own
    · exact own
  · intro a rest found
    exact (inside s).of_rest a rest found

/-- A family of properties is carried by a parser that describes itself if its description carries it. -/
theorem recursive {ι : Type} {before after : ι → List Char → Note → Prop}
    {body : Parser α → Parser α}
    (step : ∀ p, (∀ i, Carries p (before i) (after i)) →
      ∀ i, Carries (body p) (before i) (after i)) (i : ι) :
    Carries (Parser.recursive body) (before i) (after i) := by
  have all (s : List Char) (i : ι) : (Parser.recursive body s).Carries (before i s) (after i) := by
    apply recursive_induction (motive := fun s o => ∀ i, o.Carries (before i s) (after i))
    · exact fun _ _ => ⟨fun _ mem => (nomatch mem), fun _ _ found => (nomatch found)⟩
    · exact fun p inside s i => step p (fun j t => inside t j) i s
  exact fun s => all s i

end Carries

/-- A parser whose notes stand where it begins carries a property that holds of all notes there. -/
theorem StopsAtStart.carries {p : Parser α} (stops : StopsAtStart p)
    (start : ∀ s, ∀ note ∈ (p s).notes, note.remaining = s.length → V s note)
    (rest : ∀ s a rest, (p s).result = some (a, rest) → ∀ note, W rest note → V s note) :
    Carries p V W :=
  fun s => ⟨fun note mem => start s note mem (stops s note mem), rest s⟩

/-- A keyword leaves the notes of its letters where they spell it or are missing, and otherwise one at the
first letter. -/
theorem carries_word {k : Keyword} (merges : Merges V)
    (letters : ∀ s, k.spelledBy (s.takeWhile isAlphabetic) = true ∨ s.takeWhile isAlphabetic = [] →
      ∀ note ∈ (many1 (charWhere isAlphabetic) s).notes, V s note)
    (misspelt : ∀ s, V s (.raised ⟨s.length, .keyword k⟩))
    (spelled : ∀ s rest, (word k s).result = some ((), rest) → ∀ note, W rest note → V s note) :
    Carries (word k) V W := by
  intro s
  refine ⟨fun note mem => ?_, fun _ rest found => spelled s rest found⟩
  have result := many1_charWhere_result isAlphabetic s
  have summed (known : k.spelledBy (s.takeWhile isAlphabetic) = true ∨
      s.takeWhile isAlphabetic = [])
      (own : note ∈ summary (many1 (charWhere isAlphabetic) s).notes) : V s note := by
    obtain ⟨e, found, rfl⟩ := Option.map_eq_some_iff.mp (Option.mem_toList.mp own)
    exact merges s _ e (letters s known) found
  unfold word at mem
  split at mem
  · rename_i notes run
    rw [run] at result summed
    split at result
    · rename_i missing
      exact summed (.inr missing) mem
    · cases result
  · rename_i found rest notes run
    rw [run] at result summed
    split at result
    · cases result
    · obtain ⟨rfl, rfl⟩ := Prod.mk.inj (Option.some.inj result)
      split at mem
      · rename_i known
        exact summed (.inl known) mem
      · rw [List.mem_singleton.mp mem]
        exact misspelt s

end Parser

end RecordQuery
