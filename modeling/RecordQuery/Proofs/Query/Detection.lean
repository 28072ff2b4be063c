import RecordQuery.Query.Dialect
import RecordQuery.Proofs.Query.Writing

/-!
# Which dialect takes charge

The standard registry asks for statements first, then for calls, and leaves every other text that is not
blank to bare predicates. Written predicates and wrapped ones come to the dialect in which they were
written.
-/

namespace RecordQuery

namespace DialectRegistry

/-- A dialect of no greater priority than the others is asked last. -/
theorem dialects_register {registry : DialectRegistry} {dialect : Dialect}
    (sorted : (registry.dialects ++ [dialect]).Pairwise fun a b => b.priority ≤ a.priority) :
    (registry.register dialect).dialects = registry.dialects ++ [dialect] :=
  List.mergeSort_of_pairwise (sorted.imp decide_eq_true)

/-- The standard dialects in the order in which they are asked. -/
theorem dialects_standard :
    standard.dialects = [.statement, .call, .barePredicate] := by
  have first : (empty.register .statement).dialects = [.statement] :=
    dialects_register (List.pairwise_singleton ..)
  have second : ((empty.register .statement).register .call).dialects = [.statement, .call] := by
    rw [dialects_register, first]
    · rfl
    · rw [first]
      simp [Dialect.statement, Dialect.call]
  have third : standard.dialects = [.statement, .call] ++ [.barePredicate] := by
    rw [← second]
    apply dialects_register
    rw [second]
    simp [Dialect.statement, Dialect.call, Dialect.barePredicate]
  exact third

theorem names_standard : standard.names = ["sql", "cqn", "predicate"] := by
  rw [names, dialects_standard]
  rfl

/-- What takes charge of a text is one of the standard dialects. -/
theorem mem_of_detect?_standard {text : String} {dialect : Dialect}
    (taken : standard.detect? text = some dialect) :
    dialect ∈ [Dialect.statement, .call, .barePredicate] :=
  dialects_standard ▸ List.mem_of_find?_eq_some taken

open Dialect

/-- Statements are told by their first word, calls by their name and parenthesis, and bare predicates
by not being blank. -/
theorem detect?_standard (text : String) :
    standard.detect? text =
      if opensStatement text then some .statement
      else if opensCall text then some .call
      else if isBlankText text then none
      else some .barePredicate := by
  rw [detect?, dialects_standard, List.find?_cons, List.find?_cons, List.find?_cons]
  change (match opensStatement text with
    | true => some Dialect.statement
    | false => match opensCall text with
      | true => some Dialect.call
      | false => match !isBlankText text with
        | true => some Dialect.barePredicate
        | false => none) = _
  cases opensStatement text with
  | true => rfl
  | false =>
      cases opensCall text with
      | true => rfl
      | false => cases isBlankText text <;> rfl

end DialectRegistry

namespace Dialect

/-- The first letters of the names of the calls. -/
def callInitials : List Char := ['e', 'a', 'o']

theorem exists_initial {name : String} (known : name ∈ callNames) :
    ∃ c ∈ callInitials, ∃ more, name.toList = c :: more := by
  simp only [callNames, List.mem_cons, List.not_mem_nil, or_false] at known
  obtain rfl | rfl | rfl := known
  · exact ⟨'e', by decide, _, rfl⟩
  · exact ⟨'a', by decide, _, rfl⟩
  · exact ⟨'o', by decide, _, rfl⟩

theorem isBlank_of_mem_callInitials {c : Char} (initial : c ∈ callInitials) :
    isBlank c = false := by
  have solid : callInitials.all (fun c => !isBlank c) = true := by decide
  simpa using List.all_eq_true.mp solid c initial

/-- The first letters of statements. -/
def selectInitials : List Char := ['S', 's', '\u017f']

theorem not_mem_selectInitials {c : Char} (initial : c ∈ callInitials) : c ∉ selectInitials := by
  have apart : callInitials.all (fun c => !selectInitials.contains c) = true := by decide
  simpa using List.all_eq_true.mp apart c initial

/-! ### The first character of a text -/

section FirstCharacter

variable {text : String} {c : Char} {rest : List Char}

theorem skipBlanks_of_toList (written : text.toList = c :: rest) (solid : isBlank c = false) :
    skipBlanks text.toList = c :: rest := by
  rw [written]
  exact Grammar.skipBlanks_of_head? rfl solid

theorem isBlankText_of_toList (written : text.toList = c :: rest) (solid : isBlank c = false) :
    isBlankText text = false := by
  rw [isBlankText, written, List.all_cons, solid, Bool.false_and]

/-- A text with another first letter is no statement. -/
theorem opensStatement_of_toList (written : text.toList = c :: rest) (solid : isBlank c = false)
    (other : c ∉ selectInitials) : opensStatement text = false := by
  unfold selectInitials at other
  rw [opensStatement, skipBlanks_of_toList written solid, selectLetters, stripOpening, if_neg other]
  rfl

/-- A text with another first letter is no call. -/
theorem opensCall_of_toList (written : text.toList = c :: rest) (solid : isBlank c = false)
    (other : c ∉ callInitials) : opensCall text = false := by
  rw [opensCall, skipBlanks_of_toList written solid, List.any_eq_false]
  intro name known
  obtain ⟨d, initial, more, letters⟩ := exists_initial known
  have differ : c ∉ [d] := by
    rw [List.mem_singleton]
    rintro rfl
    exact other initial
  rw [letters, List.map_cons, stripOpening, if_neg differ]
  exact Bool.false_ne_true

end FirstCharacter

theorem stripOpening_append (cs rest : List Char) :
    stripOpening (cs.map fun c => [c]) (cs ++ rest) = some rest := by
  induction cs with
  | nil => rfl
  | cons c more ih =>
      rw [List.map_cons, List.cons_append, stripOpening, if_pos (List.mem_singleton_self c), ih]

/-- A text that begins with the name of a call and a parenthesis is a call. -/
theorem opensCall_of_name {text name : String} {rest : List Char} (known : name ∈ callNames)
    (written : text.toList = name.toList ++ '(' :: rest) : opensCall text = true := by
  obtain ⟨c, initial, more, letters⟩ := exists_initial known
  have unskipped : skipBlanks text.toList = text.toList := by
    rw [written, letters]
    exact Grammar.skipBlanks_of_head? rfl (isBlank_of_mem_callInitials initial)
  rw [opensCall, List.any_eq_true]
  refine ⟨name, known, ?_⟩
  rw [unskipped, written, stripOpening_append]
  rfl

theorem stripOpening_selectLetters (rest : List Char) :
    stripOpening selectLetters (Keyword.selectWord.text.toList ++ rest) = some rest :=
  rfl

theorem opensStatement_wrap (collection text : String) :
    opensStatement (Statement.wrap collection text) = true := by
  rw [opensStatement, Grammar.toList_wrap, Grammar.skipBlanks_of_head? rfl (by decide),
    stripOpening_selectLetters, Option.any_some]
  have behind : isWordChar ' ' = false := by decide
  rw [atWordEnd, behind]
  rfl

end Dialect

namespace DialectRegistry

open Dialect

/-- No dialect takes charge of blank texts, and of no others. -/
theorem detect?_eq_none_iff {text : String} :
    standard.detect? text = none ↔ isBlankText text = true := by
  rw [detect?_standard]
  cases blank : isBlankText text with
  | false => cases opensStatement text <;> cases opensCall text <;> simp
  | true =>
      have blanks : Grammar.Blanks text.toList [] :=
        ⟨text.toList, List.all_eq_true.mp blank, (List.append_nil _).symm⟩
      have skipped : skipBlanks text.toList = [] := blanks.skipBlanks_eq
      have noStatement : opensStatement text = false := by
        rw [opensStatement, skipped]
        rfl
      have noCall : opensCall text = false := by
        rw [opensCall, skipped]
        decide
      simp [noStatement, noCall]

/-- A wrapped predicate comes to the statement dialect, whether or not it can be read. -/
theorem detect?_wrap (collection text : String) :
    standard.detect? (Statement.wrap collection text) = some .statement := by
  rw [detect?_standard, if_pos (opensStatement_wrap collection text)]

/-- A predicate that is written in the statement dialect comes to bare predicates. -/
theorem detect?_write (p : Predicate) : standard.detect? p.write = some .barePredicate := by
  have opening : ∃ c rest, p.write.toList = c :: rest ∧ (c = '\x22' ∨ c = '(') := by
    rw [Predicate.write, String.toList_ofList]
    cases p with
    | equal field value =>
        rw [Predicate.statementChars, String.toList_append, String.toList_append,
          Statement.quoteName, String.toList_append, String.toList_append]
        exact ⟨_, _, rfl, .inl rfl⟩
    | and children => exact ⟨_, _, rfl, .inr rfl⟩
    | or children => exact ⟨_, _, rfl, .inr rfl⟩
  obtain ⟨c, rest, written, first⟩ := opening
  have solid : isBlank c = false := by
    rcases first with rfl | rfl <;> decide
  have noStatement : c ∉ selectInitials := by
    rcases first with rfl | rfl <;> decide
  have noCall : c ∉ callInitials := by
    rcases first with rfl | rfl <;> decide
  rw [detect?_standard, opensStatement_of_toList written solid noStatement,
    opensCall_of_toList written solid noCall, isBlankText_of_toList written solid]
  rfl

/-- A predicate that is written in call notation comes to call notation. -/
theorem detect?_writeCall (p : Predicate) : standard.detect? p.writeCall = some .call := by
  have opening : ∃ name ∈ callNames, ∃ rest, p.writeCall.toList = name.toList ++ '(' :: rest := by
    rw [Predicate.writeCall, String.toList_ofList, ← List.append_nil p.callChars]
    cases p with
    | equal field value => exact ⟨"equal", by decide, _, Grammar.equal_callChars_append field value []⟩
    | and children => exact ⟨"and", by decide, _, Grammar.and_callChars_append children []⟩
    | or children => exact ⟨"or", by decide, _, Grammar.or_callChars_append children []⟩
  obtain ⟨name, known, rest, written⟩ := opening
  obtain ⟨c, initial, more, letters⟩ := exists_initial known
  rw [letters, List.cons_append] at written
  have refused := opensStatement_of_toList written (isBlank_of_mem_callInitials initial)
    (not_mem_selectInitials initial)
  rw [← List.cons_append, ← letters] at written
  rw [detect?_standard, refused, opensCall_of_name known written]
  rfl

end DialectRegistry

end RecordQuery
