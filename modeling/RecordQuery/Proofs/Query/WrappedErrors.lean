import RecordQuery.Proofs.Query.Places
import RecordQuery.Proofs.Query.Wrapping

/-!
# Errors of wrapped predicates

The statement that a bare predicate stands for is refused where and as the predicate is. The tokens in
front of the predicate leave notes, but only before it, and a predicate that is refused leaves a note of
its own. What remains behind a place is the same in both texts, so the two errors are one.
-/

namespace RecordQuery

/-- Applies a function to the value of an outcome. -/
def Outcome.map {α β : Type} (f : α → β) (o : Outcome α) : Outcome β :=
  ⟨o.result.map (Prod.map f id), o.notes⟩

/-- Whether an outcome is another one with notes in front of it that stand before the last `n`
characters. -/
structure Outcome.LeadsTo {α : Type} (n : Nat) (o o' : Outcome α) : Prop where
  result : o.result = o'.result
  notes : ∃ earlier, (∀ note ∈ earlier, n < note.remaining) ∧ o.notes = earlier ++ o'.notes

theorem Outcome.LeadsTo.trans {α : Type} {n : Nat} {o o₁ o₂ : Outcome α} (h : o.LeadsTo n o₁)
    (h' : o₁.LeadsTo n o₂) : o.LeadsTo n o₂ := by
  obtain ⟨result, earlier, before, notes⟩ := h
  obtain ⟨result', earlier', before', notes'⟩ := h'
  refine ⟨result.trans result', earlier ++ earlier', ?_, ?_⟩
  · intro note mem
    rcases List.mem_append.mp mem with mem | mem
    · exact before note mem
    · exact before' note mem
  · rw [notes, notes', List.append_assoc]

namespace Parser

open Grammar

variable {α β : Type}

/-- Whether the parser takes a value off the text and leaves its notes before the last `n`
characters. -/
structure Passes (p : Parser α) (s : List Char) (a : α) (rest : List Char) (n : Nat) : Prop where
  result : (p s).result = some (a, rest)
  early : ∀ note ∈ (p s).notes, n < note.remaining

/-- A sequence goes on behind a first part that has been passed. -/
theorem Passes.bind {p : Parser α} {s rest : List Char} {a : α} {n : Nat}
    (h : Passes p s a rest n) (f : α → Parser β) : ((p >>= f) s).LeadsTo n (f a rest) where
  result := by rw [bind_result, h.result, Option.bind_some]
  notes := ⟨(p s).notes, h.early, by rw [bind_notes, h.result, Option.elim_some]⟩

/-- Leading blanks make no difference to what a padded parser passes. -/
theorem Passes.behind_blanks {p : Parser α} {s rest : List Char} {a : α} {n : Nat}
    (h : Passes (padded p) s a rest n) : Passes (padded p) (skipBlanks s) a rest n where
  result := by rw [padded_skipBlanks, h.result]
  early := by
    rw [padded_notes, skipBlanks_idem, ← padded_notes]
    exact h.early

theorem passes_keyword (k : Keyword) {rest : List Char} {n : Nat} (le : n ≤ rest.length) :
    Passes (keyword k) (k.text.toList ++ ' ' :: rest) () (skipBlanks rest) n := by
  refine ⟨keyword_complete (word_text k rest), ?_⟩
  intro note mem
  have run := run_text k rest
  obtain ⟨c, head, letter⟩ := run.exists_head
  rw [keyword, padded_notes,
    skipBlanks_of_head? head (isBlank_eq_false_of_isAlphabetic letter)] at mem
  rcases remaining_of_mem_word mem with place | ⟨other, own, place⟩
  · rw [place, List.length_append, List.length_cons]
    omega
  · have bound := remaining_of_mem_run other own
    obtain ⟨-, -, same⟩ := run_iff.mp run
    rw [← same, List.length_cons, place] at bound
    omega

theorem passes_star (rest : List Char) (n : Nat) :
    Passes (padded (char '*')) ('*' :: ' ' :: rest) '*' (skipBlanks rest) n := by
  refine ⟨padded_char_complete (by decide) (padded_star rest), ?_⟩
  intro note mem
  rw [padded_notes, skipBlanks_of_head? rfl (by decide), char_notes_cons] at mem
  cases mem

/-- A written name is passed in front of a keyword. -/
theorem passes_writeName (collection : String) {rest after : List Char} {k : Keyword} {n : Nat}
    (next : Padded (Word k) rest () after) (le : n ≤ rest.length) :
    Passes (label .collectionName (padded fieldName))
      (skipBlanks ((Statement.writeName collection).toList ++ ' ' :: rest)) collection
      (skipBlanks rest) n := by
  have found := padded_fieldName_complete (padded_writeName collection rest) next
    fun c noLetter _ _ => head?_ne_of_word noLetter
  refine ⟨by rw [label_result, found], ?_⟩
  intro note mem
  obtain ⟨other, own, place⟩ := exists_mem_of_label mem
  have reading := name_writeName collection rest
  obtain ⟨c, head, solid⟩ := solid_name _ _ _ reading
  rw [padded_notes, skipBlanks_idem, skipBlanks_of_head? head solid] at own
  have behind : NoDelimiter (' ' :: rest) := ⟨by simp, by simp⟩
  have bound := le_remaining_of_mem_fieldName reading behind other own
  rw [List.length_cons, place] at bound
  omega

/-- The predicate of a wrapped text, read up to the end. -/
def closing (f : Predicate → β) : Parser β := do
  let p ← predicate
  endOfInput
  return f p

/-- A statement that wraps a predicate comes to reading the predicate. -/
theorem statement_leadsTo (collection text : String) :
    (statement (Statement.wrap collection text).toList).LeadsTo text.toList.length
      (closing (Statement.mk collection) (skipBlanks text.toList)) := by
  rw [toList_wrap, statement]
  generalize text.toList = s
  refine ((passes_keyword .selectWord ?_).bind _).trans ?_
  · simp only [List.length_cons, List.length_append]
    omega
  refine ((passes_star _ _).behind_blanks.bind _).trans ?_
  refine ((passes_keyword .fromWord ?_).behind_blanks.bind _).trans ?_
  · simp only [List.length_cons, List.length_append]
    omega
  refine ((passes_writeName collection (word_text .whereWord s) ?_).bind _).trans ?_
  · simp only [List.length_cons, List.length_append]
    omega
  exact (passes_keyword .whereWord (Nat.le_refl _)).behind_blanks.bind _

/-- No blanks are left behind a predicate. -/
theorem skipBlanks_of_predicate {s rest : List Char} {p : Predicate}
    (found : (predicate s).result = some (p, rest)) : skipBlanks rest = rest := by
  rw [predicate_eq, orElse_result, Option.or_eq_some_iff] at found
  rcases found with group | ⟨-, comparison⟩
  · simp only [Parser.group, label_result, bind_result_eq_some_iff, pure_result, Option.some.injEq,
      Prod.mk.injEq] at group
    obtain ⟨_, _, _, _, _, _, _, _, _, _, _, closing, -, rfl⟩ := group
    obtain ⟨tail, -, rfl⟩ := padded_result_eq_some_iff.mp closing
    exact skipBlanks_idem tail
  · simp only [Parser.comparison, label_result, bind_result_eq_some_iff, pure_result,
      Option.some.injEq, Prod.mk.injEq] at comparison
    obtain ⟨_, _, _, _, _, _, _, _, literal, -, rfl⟩ := comparison
    obtain ⟨tail, -, rfl⟩ := padded_result_eq_some_iff.mp literal
    exact skipBlanks_idem tail

/-- Reading a wrapped predicate up to the end is reading the bare predicate. -/
theorem closing_eq (f : Predicate → β) (s : List Char) :
    closing f (skipBlanks s) = (barePredicate s).map f := by
  apply Outcome.ext
  · change _ = (barePredicate s).result.map (Prod.map f id)
    rw [closing, barePredicate, bind_result, bind_result, padded_result]
    cases found : (predicate (skipBlanks s)).result with
    | none => rfl
    | some pair =>
        rw [Option.map_some, Option.bind_some, Option.bind_some,
          skipBlanks_of_predicate (p := pair.1) found, bind_result, bind_result]
        cases (endOfInput pair.2).result with
        | none => rfl
        | some _ => rfl
  · change _ = (barePredicate s).notes
    rw [closing, barePredicate, bind_notes, bind_notes, padded_notes, padded_result]
    cases found : (predicate (skipBlanks s)).result with
    | none => rfl
    | some pair =>
        rw [Option.map_some, Option.elim_some, Option.elim_some,
          skipBlanks_of_predicate (p := pair.1) found, bind_notes, bind_notes]
        cases (endOfInput pair.2).result with
        | none => rfl
        | some _ => rfl

/-- Reading a whole text that leads to another one ends as the reading of that one. -/
theorem readAll_of_leadsTo {p : Parser β} {q : Parser α} {f : α → β} {s t : List Char}
    (leads : (p s).LeadsTo t.length ((q t).map f)) (confined : Confined q) (reports : Reports q) :
    p.readAll s = (q.readAll t).map f := by
  obtain ⟨same, earlier, before, split⟩ := leads
  rw [readAll_eq, readAll_eq, same]
  cases result : (q t).result with
  | some found =>
      simp only [Outcome.map, result]
      rfl
  | none =>
      have some := (reports t result).elim fun _ mem => List.ne_nil_of_mem mem
      obtain ⟨e, found, -⟩ := SyntaxError.exists_furthest some
      have furthest := SyntaxError.furthest_append before (confined t).note_le some
      have split : (p s).notes = earlier ++ (q t).notes := split
      simp only [Outcome.map, result, split, furthest, found, Option.getD_some]
      rfl

end Parser

namespace Statement

/-- A wrapped predicate is read as the predicate is, and refused with the same error. -/
theorem parse_wrap (collection text : String) :
    parse (wrap collection text) = (Predicate.parse text).map (Statement.mk collection) := by
  apply Parser.readAll_of_leadsTo ?_ Parser.confined_barePredicate Parser.reports_barePredicate
  rw [← Parser.closing_eq]
  exact Parser.statement_leadsTo collection text

end Statement

end RecordQuery
