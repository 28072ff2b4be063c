import RecordQuery.Proofs.Query.Dialect
import RecordQuery.Proofs.Query.ViableTexts
import RecordQuery.Proofs.Query.FoundCharacters
import RecordQuery.Proofs.Query.Locality

/-!
# Where syntax errors point

A text that a dialect refuses is reported with one reason, at the line and the column of one place of the
text. What stands in front of that place can be completed to a text that the dialect reads, and a
character that the report says was found is the one that stands there. In call notation the place is
exact: no text that the dialect reads begins with the same characters up to and with the one at the
place.
-/

namespace RecordQuery

open Grammar

/-! ### Errors of parsers -/

/-- A viable place is a number of characters that can be completed. -/
theorem Grammar.Viable.exists_take {texts : List Char → Prop} {s : List Char} {e : SyntaxError}
    (viable : Viable texts s (.raised e)) :
    ∃ p more, e.StandsAt s p ∧ texts (s.take p ++ more) := by
  obtain ⟨front, behind, more, rfl, place, wanted⟩ := viable
  refine ⟨front.length, more, ?_, ?_⟩
  · change front.length + e.remaining = _
    rw [List.length_append, place]
    rfl
  · rwa [List.take_left]

/-- A character that is named is the one at the place. -/
theorem Faithful.found_eq {s : List Char} {e : SyntaxError} {p : Nat} (told : Faithful s (.raised e))
    (place : e.StandsAt s p) {items : List Expectation} {found : Option Char}
    (reason : e.reason = .expected items found) : found = s[p]? := by
  obtain ⟨behind, suffix, length, names⟩ := told
  obtain ⟨front, rfl⟩ := suffix
  obtain ⟨remaining, own⟩ := e
  change own = _ at reason
  subst reason
  have here : p = front.length := by
    change p + remaining = _ at place
    change behind.length = remaining at length
    rw [List.length_append] at place
    omega
  rw [here, List.getElem?_append_right (Nat.le_refl _), Nat.sub_self, ← List.head?_eq_getElem?]
  exact names

namespace Parser

variable {α : Type} {p : Parser α} {V W : List Char → Note → Prop} {text : List Char}
  {e : SyntaxError}

/-- Where notes are left wherever a text is refused, the error is what the notes amount to. -/
theorem furthest_of_refused (reports : Reports p) (refused : p.readAll text = .error e) :
    (p text).result = none ∧ SyntaxError.furthest (p text).notes = some e := by
  rw [readAll_eq] at refused
  cases result : (p text).result with
  | some found =>
      rw [result] at refused
      cases refused
  | none =>
      obtain ⟨note, mem⟩ := reports text result
      obtain ⟨e', found, -⟩ := SyntaxError.exists_furthest (List.ne_nil_of_mem mem)
      rw [result, found] at refused
      obtain rfl := Except.error.inj refused
      exact ⟨rfl, found⟩

/-- What holds of all notes of a parser holds of the error that it refuses a text with. -/
theorem Carries.of_refused (carries : Carries p V W) (merges : Merges V) (reports : Reports p)
    (refused : p.readAll text = .error e) : V text (.raised e) :=
  merges text _ e (carries text).of_mem (furthest_of_refused reports refused).2

end Parser

/-! ### Errors of dialects -/

namespace Dialect

/-- What a report says of a place of a text: it names the character there, or says that the text ends
there, and then what could have stood there, or it asks for a keyword. -/
inductive TellsOf (text : List Char) (p : Nat) : String → Prop
  | character {c} (here : text[p]? = some c) (wanted : String) :
      TellsOf text p ("found '" ++ String.singleton c ++ "' expected " ++ wanted)
  | ended (last : p = text.length) (wanted : String) :
      TellsOf text p ("found end of input expected " ++ wanted)
  | keyword {k word} (worded : Keyword.Worded k word) :
      TellsOf text p ("expected keyword '" ++ word ++ "'")

/-- Whether a report with the line and the column of the place behind the first `p` characters of a text
points at that place. -/
structure PointsAt (dialect : Dialect) (text : List Char) (p : Nat) (said : String) : Prop where
  le_length : p ≤ text.length
  /-- No other place has the same line and the same column. -/
  position_eq_iff : ∀ q ≤ text.length,
    SyntaxError.position (text.take q) = SyntaxError.position (text.take p) ↔ q = p
  /-- What stands in front of the place begins a text that the dialect reads. -/
  exists_reads : ∃ more, dialect.Reads (String.ofList (text.take p ++ more))
  tells : TellsOf text p said

variable {α : Type} {dialect : Dialect} {p : Parser α} {V W : List Char → Note → Prop}
  {text : List Char} {e : SyntaxError} {said : String}

/-- A reason tells of its place if a character that it names is the one at the place. -/
theorem tellsOf_of_worded {k : Nat} {reason : Reason} (worded : reason.Worded said)
    (le : k ≤ text.length)
    (same : ∀ items found, reason = .expected items found → found = text[k]?) :
    TellsOf text k said := by
  cases worded with
  | found c each phrase => exact .character (same _ _ rfl).symm _
  | ended each phrase =>
      have behind := List.getElem?_eq_none_iff.mp (same _ _ rfl).symm
      exact .ended (Nat.le_antisymm le behind) _
  | keyword worded => exact .keyword worded

/-- An error points at a place of the text that it is reported for if the parser leaves its notes at viable
places and names what stands there. -/
theorem pointsAt_of_refused {texts : List Char → Prop} (viable : p.Carries (Viable texts) V)
    (told : p.Carries Faithful W) (reports : p.Reports)
    (reads : ∀ s, texts s → dialect.Reads (String.ofList s)) (refused : p.readAll text = .error e)
    (worded : e.reason.Worded said) :
    ∃ k, e.StandsAt text k ∧ dialect.PointsAt text k said := by
  obtain ⟨k, more, stands, wanted⟩ :=
    (viable.of_refused (settled_viable texts).merges reports refused).exists_take
  have le : k ≤ text.length := stands ▸ Nat.le_add_right k _
  have faithful := told.of_refused (Parser.merges_told _) reports refused
  refine ⟨k, stands, le, ?_, ⟨more, reads _ wanted⟩, ?_⟩
  · intro q q_le
    constructor
    · exact SyntaxError.position_take_inj q_le le
    · rintro rfl
      rfl
  · exact tellsOf_of_worded worded le fun items found => faithful.found_eq stands

theorem reads_statement {s : List Char} (h : ∃ st, StatementText s st) :
    Reads .statement (String.ofList s) := by
  obtain ⟨st, reading⟩ := h
  rw [← String.toList_ofList (l := s)] at reading
  exact ⟨_, parse_statement_eq_ok_iff.mpr ⟨st, Statement.parse_eq_ok_iff.mpr reading, rfl⟩⟩

theorem reads_barePredicate {s : List Char} (h : ∃ p, Expression s p []) :
    Reads .barePredicate (String.ofList s) := by
  obtain ⟨p, reading⟩ := h
  rw [← String.toList_ofList (l := s)] at reading
  exact ⟨p, parse_barePredicate_eq_ok_iff.mpr (Predicate.parse_eq_ok_iff.mpr reading)⟩

theorem reads_call_iff {s : List Char} :
    Reads .call (String.ofList s) ↔ ∃ p, Padded Call s p [] := by
  simp only [Reads, parse_call_eq_ok_iff, Predicate.parseCall_eq_ok_iff, String.toList_ofList]

/-- In call notation no text that is read begins with the characters up to and with the one at the place
of an error. -/
theorem not_reads_call_of_standsAt (refused : Parser.wholeCall.readAll text = .error e) {p : Nat}
    (place : e.StandsAt text p) :
    p = text.length ∨ ∀ more, ¬ Reads .call (String.ofList (text.take (p + 1) ++ more)) := by
  obtain ⟨none, found⟩ := Parser.furthest_of_refused Parser.reports_wholeCall refused
  rcases Nat.lt_or_ge p text.length with inside | behind
  · right
    rintro more reads
    obtain ⟨q, reading⟩ := reads_call_iff.mp reads
    have split : text = text.take p ++ text[p] :: text.drop (p + 1) := by
      rw [← List.drop_eq_getElem_cons inside, List.take_append_drop]
    have near : (text.drop (p + 1)).length < e.remaining := by
      rw [List.length_drop]
      change p + e.remaining = _ at place
      omega
    rw [split] at none found
    have refused := Parser.wholeCall_refused none found near more
    rw [List.take_add_one, List.getElem?_eq_getElem inside, Option.toList_some, List.append_assoc,
      List.singleton_append] at reading
    rw [Parser.wholeCall_result_eq_some_iff.mpr ⟨reading, rfl⟩] at refused
    cases refused
  · exact .inl (Nat.le_antisymm (place ▸ Nat.le_add_right p _) behind)

/-- Where the parser of a standard dialect refuses a text, its error points at a place of the text, and in
call notation at the furthest place that any completion reaches. -/
theorem ParsedBy.pointsAt {parse : String → Except SyntaxError Predicate}
    (parsed : dialect.ParsedBy parse) {text : String} (refused : parse text = .error e)
    (worded : e.reason.Worded said) :
    ∃ k, e.StandsAt text.toList k ∧ dialect.PointsAt text.toList k said ∧
      (dialect = .call → k = text.toList.length ∨
        ∀ more, ¬ dialect.Reads (String.ofList (text.toList.take (k + 1) ++ more))) := by
  cases parsed with
  | statement =>
      obtain ⟨k, stands, points⟩ := pointsAt_of_refused Parser.viable_statement
        Parser.faithful_statement Parser.reports_statement
        (fun _ => reads_statement) (map_eq_error_iff.mp refused) worded
      exact ⟨k, stands, points, fun same => absurd (congrArg Dialect.name same) (by decide)⟩
  | barePredicate =>
      obtain ⟨k, stands, points⟩ := pointsAt_of_refused Parser.viable_barePredicate
        Parser.faithful_barePredicate Parser.reports_barePredicate (fun _ => reads_barePredicate) refused worded
      exact ⟨k, stands, points, fun same => absurd (congrArg Dialect.name same) (by decide)⟩
  | call =>
      obtain ⟨k, stands, points⟩ := pointsAt_of_refused Parser.viable_wholeCall
        Parser.faithful_wholeCall Parser.reports_wholeCall (fun _ => reads_call_iff.mpr) refused worded
      exact ⟨k, stands, points, fun _ => not_reads_call_of_standsAt refused stands⟩

/-- The words in which a standard dialect refuses a text are those of its reports. -/
theorem reports_iff (known : dialect ∈ [Dialect.statement, .call, .barePredicate]) {text : String}
    {message : String} :
    dialect.Reports text message ↔ ∃ e, dialect.parse text = .error e ∧ e.message = message := by
  have inside {parse} (parsed : dialect.ParsedBy parse) (e : SyntaxError)
      (refused : parse text = .error e) : e.remaining ≤ text.toList.length := by
    obtain ⟨said, worded⟩ := e.reason.exists_worded
    obtain ⟨k, stands, -⟩ := parsed.pointsAt refused worded
    exact stands ▸ Nat.le_add_left e.remaining k
  constructor
  · rintro ⟨parse, parsed, reported⟩
    exact parsed.message_iff.mpr ((reportedAs_iff (inside parsed)).mp reported)
  · intro refused
    obtain ⟨parse, parsed⟩ := exists_parsedBy known
    exact ⟨parse, parsed, (reportedAs_iff (inside parsed)).mpr (parsed.message_iff.mp refused)⟩

/-- A text that a dialect refuses is reported in the words of one reason, at the line and the column of
exactly one place of the text. What stands in front of the place begins a text that the dialect reads.
A report of what was found names the character at the place, or says that the text ends if the place is
its end. In call notation nothing that is read begins with one character more. -/
theorem syntax_error_points {dialect : Dialect} {parse : String → Except SyntaxError Predicate}
    (parsed : dialect.ParsedBy parse) {text : String} {error : ParseError}
    (refused : dialect.parse text = .error error) :
    ∃ p reason said, RefusedAt (parse text) text.toList reason p ∧ reason.Worded said ∧
      error.message = SyntaxError.reportAt (SyntaxError.position (text.toList.take p)) said ∧
      dialect.PointsAt text.toList p said ∧
      (dialect = .call → p = text.toList.length ∨
        ∀ more, ¬ dialect.Reads (String.ofList (text.toList.take (p + 1) ++ more))) := by
  obtain ⟨e, failed, message⟩ := parsed.message_iff.mp ⟨error, refused, rfl⟩
  obtain ⟨said, worded⟩ := e.reason.exists_worded
  obtain ⟨p, stands, points, furthest⟩ := parsed.pointsAt failed worded
  exact ⟨p, e.reason, said, ⟨e, failed, rfl, stands⟩, worded,
    message.trans (SyntaxError.report_of_standsAt stands worded), points, furthest⟩

/-- A call that ends early on its second line, and a group that is not closed. -/
theorem syntax_error_points_of_two_texts :
    Dialect.call.parse "and(equal(\"a\",\n\"b\") x" =
      .error (.call "Line 2, column 6: found 'x' expected ','") ∧
    Dialect.call.PointsAt "and(equal(\"a\",\n\"b\") x".toList 20 "found 'x' expected ','" ∧
    (∀ more, ¬ Dialect.call.Reads
      (String.ofList ("and(equal(\"a\",\n\"b\") x".toList.take 21 ++ more))) ∧
    Dialect.barePredicate.parse "(a = '1'" =
      .error (.statement "Line 1, column 9: found end of input expected ''', any, or ')'") ∧
    Dialect.barePredicate.PointsAt "(a = '1'".toList 8
      "found end of input expected ''', any, or ')'" := by
  have early : Predicate.parseCall "and(equal(\"a\",\n\"b\") x" =
      .error ⟨1, .expected [.char ','] (some 'x')⟩ :=
    map_eq_error_iff (f := fun _ => ()).mp (by decide +kernel)
  have unclosed : Predicate.parse "(a = '1'" =
      .error ⟨0, .expected [.char '\x27', .anyChar, .char ')'] none⟩ :=
    map_eq_error_iff (f := fun _ => ()).mp (by decide +kernel)
  have unread := parse_call_eq_error_iff.mpr ⟨_, early, rfl⟩
  have unread' := parse_barePredicate_eq_error_iff.mpr ⟨_, unclosed, rfl⟩
  obtain ⟨p, _, said, ⟨e, failed, rfl, stands⟩, worded, -, points, furthest⟩ :=
    syntax_error_points .call unread
  obtain ⟨p', _, said', ⟨e', failed', rfl, stands'⟩, worded', -, points', -⟩ :=
    syntax_error_points .barePredicate unread'
  obtain rfl := Except.error.inj (early.symm.trans failed)
  obtain rfl := Except.error.inj (unclosed.symm.trans failed')
  obtain rfl : p = 20 := Nat.succ.inj stands
  obtain rfl : p' = 8 := stands'
  obtain rfl : said = "found 'x' expected ','" :=
    (Reason.worded_iff.mp worded).trans (by decide +kernel)
  obtain rfl : said' = "found end of input expected ''', any, or ')'" :=
    (Reason.worded_iff.mp worded').trans (by decide +kernel)
  refine ⟨unread.trans ?_, points, (furthest rfl).resolve_left (by decide), unread'.trans ?_,
    points'⟩
  · apply congrArg (fun report => Except.error (ParseError.call report))
    decide +kernel
  · apply congrArg (fun report => Except.error (ParseError.statement report))
    decide +kernel

end Dialect

end RecordQuery
