import RecordQuery.Query.Dialect
import RecordQuery.Proofs.Query.Wording

/-!
# What the dialects read

Every standard dialect reads what its parser does, and refuses a text with the report of the parser's
error.
-/

namespace RecordQuery

/-- Changing the value of an outcome leaves its errors as they are. -/
theorem map_eq_error_iff {ε β γ : Type} {f : β → γ} {x : Except ε β} {e : ε} :
    x.map f = .error e ↔ x = .error e := by
  cases x with
  | error e' => simp [Except.map]
  | ok b => simp [Except.map]

namespace Dialect

/-- Whether the dialect reads the text as some predicate. -/
def Reads (dialect : Dialect) (text : String) : Prop := ∃ p, dialect.parse text = .ok p

theorem parse_statement_eq_ok_iff {text : String} {p : Predicate} :
    statement.parse text = .ok p ↔ ∃ st, Statement.parse text = .ok st ∧ p = st.predicate := by
  unfold statement
  dsimp only
  cases Statement.parse text with
  | ok st => simp [eq_comm]
  | error e => simp

theorem parse_barePredicate_eq_ok_iff {text : String} {p : Predicate} :
    barePredicate.parse text = .ok p ↔ Predicate.parse text = .ok p := by
  unfold barePredicate
  dsimp only
  cases Predicate.parse text with
  | ok q => simp
  | error e => simp

theorem parse_call_eq_ok_iff {text : String} {p : Predicate} :
    call.parse text = .ok p ↔ Predicate.parseCall text = .ok p := by
  unfold call
  dsimp only
  cases Predicate.parseCall text with
  | ok q => simp
  | error e => simp

theorem parse_statement_eq_error_iff {text : String} {e : ParseError} :
    statement.parse text = .error e ↔
      ∃ error, Statement.parse text = .error error ∧ e = .statement (error.report text.toList) := by
  unfold statement
  dsimp only
  cases Statement.parse text with
  | ok st => simp
  | error error => simp [eq_comm]

theorem parse_barePredicate_eq_error_iff {text : String} {e : ParseError} :
    barePredicate.parse text = .error e ↔
      ∃ error, Predicate.parse text = .error error ∧ e = .statement (error.report text.toList) := by
  unfold barePredicate
  dsimp only
  cases Predicate.parse text with
  | ok p => simp
  | error error => simp [eq_comm]

theorem parse_call_eq_error_iff {text : String} {e : ParseError} :
    call.parse text = .error e ↔
      ∃ error, Predicate.parseCall text = .error error ∧ e = .call (error.report text.toList) := by
  unfold call
  dsimp only
  cases Predicate.parseCall text with
  | ok p => simp
  | error error => simp [eq_comm]

/-! ### Reports -/

variable {text said : String} {reason : Reason} {k : Nat}

/-- A statement that is refused at a place is reported there, in the words of the reason. -/
theorem parse_statement_of_refusedAt
    (refused : RefusedAt (Statement.parse text) text.toList reason k) (worded : reason.Worded said) :
    statement.parse text = .error (.statement
      (SyntaxError.reportAt (SyntaxError.position (text.toList.take k)) said)) := by
  obtain ⟨e, failed, rfl, place⟩ := refused
  rw [← SyntaxError.report_of_standsAt place worded]
  exact parse_statement_eq_error_iff.mpr ⟨e, failed, rfl⟩

/-- A bare predicate that is refused at a place is reported there, in the words of the reason. -/
theorem parse_barePredicate_of_refusedAt
    (refused : RefusedAt (Predicate.parse text) text.toList reason k) (worded : reason.Worded said) :
    barePredicate.parse text = .error (.statement
      (SyntaxError.reportAt (SyntaxError.position (text.toList.take k)) said)) := by
  obtain ⟨e, failed, rfl, place⟩ := refused
  rw [← SyntaxError.report_of_standsAt place worded]
  exact parse_barePredicate_eq_error_iff.mpr ⟨e, failed, rfl⟩

/-- The standard dialects, each with the parser that reads its texts. -/
inductive ParsedBy : Dialect → (String → Except SyntaxError Predicate) → Prop
  | statement : ParsedBy .statement fun text => (Statement.parse text).map Statement.predicate
  | barePredicate : ParsedBy .barePredicate Predicate.parse
  | call : ParsedBy .call Predicate.parseCall

/-- Whether a standard dialect refuses a text with a report in these words. -/
def Reports (dialect : Dialect) (text message : String) : Prop :=
  ∃ parse, dialect.ParsedBy parse ∧ ReportedAs (parse text) text.toList message

theorem exists_parsedBy {dialect : Dialect}
    (known : dialect ∈ [Dialect.statement, .call, .barePredicate]) :
    ∃ parse, dialect.ParsedBy parse := by
  simp only [List.mem_cons, List.not_mem_nil, or_false] at known
  rcases known with rfl | rfl | rfl
  · exact ⟨_, .statement⟩
  · exact ⟨_, .call⟩
  · exact ⟨_, .barePredicate⟩

/-- If a text is refused with the report of the parser's error, the error says what the report does. -/
theorem message_iff_of_report {read : Except ParseError Predicate}
    {outcome : Except SyntaxError Predicate} (error : String → ParseError)
    (spoken : ∀ report, (error report).message = report)
    (refuses : ∀ e, read = .error e ↔
      ∃ own, outcome = .error own ∧ e = error (own.report text.toList)) {message : String} :
    (∃ e, read = .error e ∧ e.message = message) ↔
      ∃ own, outcome = .error own ∧ message = own.report text.toList := by
  constructor
  · rintro ⟨e, refused, rfl⟩
    obtain ⟨own, failed, rfl⟩ := (refuses e).mp refused
    exact ⟨own, failed, spoken _⟩
  · rintro ⟨own, failed, rfl⟩
    exact ⟨_, (refuses _).mpr ⟨own, failed, rfl⟩, spoken _⟩

/-- What a standard dialect says of a text that it refuses is the report of its parser's error. -/
theorem ParsedBy.message_iff {dialect : Dialect} {parse : String → Except SyntaxError Predicate}
    (parsed : dialect.ParsedBy parse) {message : String} :
    (∃ e, dialect.parse text = .error e ∧ e.message = message) ↔
      ∃ own, parse text = .error own ∧ message = own.report text.toList := by
  cases parsed with
  | statement =>
      refine message_iff_of_report .statement (fun _ => rfl) fun e => ?_
      simp only [map_eq_error_iff, parse_statement_eq_error_iff]
  | barePredicate =>
      exact message_iff_of_report .statement (fun _ => rfl) fun e =>
        parse_barePredicate_eq_error_iff
  | call =>
      exact message_iff_of_report .call (fun _ => rfl) fun e => parse_call_eq_error_iff

end Dialect

end RecordQuery
