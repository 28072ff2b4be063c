import RecordQuery.Proofs.Query.WrappedErrors
import RecordQuery.Proofs.Engine.EntryPoints

/-!
# The name of the collection

A bare predicate runs as a statement on the configured collection. Whatever the name of the collection
and the text of the predicate are, the statement is read as the predicate is, and a syntax error moves by
the length of what is written in front of the predicate. So the name decides on the place of a syntax
error and on nothing else.
-/

namespace RecordQuery

/-- A bare predicate that is refused is refused at a place of its text. -/
theorem Predicate.exists_refusedAt {text : String} {e : SyntaxError}
    (refused : Predicate.parse text = .error e) :
    ∃ k, RefusedAt (Predicate.parse text) text.toList e.reason k := by
  have inside := Parser.confined_barePredicate.remaining_le refused
  exact ⟨text.toList.length - e.remaining, e, refused, rfl, Nat.sub_add_cancel inside⟩

namespace Statement

/-- What a statement says in front of its predicate. -/
def opening (collection : String) : String :=
  "SELECT * FROM " ++ writeName collection ++ " WHERE "

theorem wrap_eq (collection text : String) : wrap collection text = opening collection ++ text :=
  rfl

/-- A wrapped predicate is read as the predicate, on the given collection. -/
theorem parse_wrap_eq_ok_iff {collection text : String} {st : Statement} :
    parse (wrap collection text) = .ok st ↔
      ∃ p, Predicate.parse text = .ok p ∧ st = ⟨collection, p⟩ := by
  rw [parse_wrap]
  cases Predicate.parse text with
  | error e => simp [Except.map]
  | ok p => simp [Except.map, eq_comm]

theorem parse_wrap_eq_error_iff {collection text : String} {e : SyntaxError} :
    parse (wrap collection text) = .error e ↔ Predicate.parse text = .error e := by
  rw [parse_wrap, map_eq_error_iff]

/-- A wrapped predicate is refused as the predicate is, behind the opening of the statement. -/
theorem refusedAt_wrap_iff {collection text : String} {reason : Reason} {k : Nat} :
    RefusedAt (parse (wrap collection text)) (wrap collection text).toList reason
        ((opening collection).length + k) ↔
      RefusedAt (Predicate.parse text) text.toList reason k := by
  unfold RefusedAt
  simp only [parse_wrap_eq_error_iff]
  simp only [wrap_eq, String.toList_append, ← String.length_toList,
    SyntaxError.standsAt_append_iff]

end Statement

namespace QueryEngine

variable {α : Type} {flatten : α → Except FlattenError Record} {objects : List α}

/-- The engine with another name for the collection. -/
def named (engine : QueryEngine) (collection : String) : QueryEngine :=
  { engine with config := { engine.config with collection } }

/-- A bare predicate that is read selects its objects on every collection alike. -/
theorem findByPredicate_of_parsed {engine : QueryEngine} {text : String} {p : Predicate}
    (parsed : Predicate.parse text = .ok p) :
    engine.findByPredicate flatten objects text =
      (select engine.config flatten objects p).mapError QueryError.ofFailure :=
  run_of_parsed (Dialect.parse_statement_wrap parsed)

/-- A bare predicate that is refused ends in the words of the reason, at its place in the statement. -/
theorem findByPredicate_of_refusedAt {engine : QueryEngine} {text said : String} {reason : Reason}
    {k : Nat} (refused : RefusedAt (Predicate.parse text) text.toList reason k)
    (worded : reason.Worded said) :
    engine.findByPredicate flatten objects text =
      .error ⟨SyntaxError.reportAt (SyntaxError.position
        ((Statement.wrap engine.config.collection text).toList.take
          ((Statement.opening engine.config.collection).length + k))) said⟩ := by
  have moved : RefusedAt (Statement.parse (Statement.wrap engine.config.collection text)) _ reason _ :=
    Statement.refusedAt_wrap_iff.mpr refused
  rw [findByPredicate, run_of_refused (Dialect.parse_statement_of_refusedAt moved worded)]
  rfl

/-- Wrapping a predicate is transparent, for every name and every text. The statement is read exactly
where the predicate is, on that very collection and with the same tree. Where the predicate is refused
the statement is refused for the same reason, further behind by the opening of the statement, and both
are reported in the same words at the lines and columns of these places. So the name of the collection
changes neither the objects that are found nor any error but the place of a syntax error. -/
theorem collection_immaterial (collection text : String) :
    (∀ st, Statement.parse (Statement.wrap collection text) = .ok st ↔
      ∃ p, Predicate.parse text = .ok p ∧ st = ⟨collection, p⟩) ∧
    (∀ e, Predicate.parse text = .error e →
      ∃ k said, RefusedAt (Predicate.parse text) text.toList e.reason k ∧ e.reason.Worded said) ∧
    (∀ reason k, RefusedAt (Predicate.parse text) text.toList reason k ↔
      RefusedAt (Statement.parse (Statement.wrap collection text))
        (Statement.wrap collection text).toList reason
        ((Statement.opening collection).length + k)) ∧
    (∀ reason k said moved, RefusedAt (Predicate.parse text) text.toList reason k →
      reason.Worded said →
      moved = SyntaxError.reportAt (SyntaxError.position
        ((Statement.wrap collection text).toList.take
          ((Statement.opening collection).length + k))) said →
      Dialect.barePredicate.parse text = .error (.statement
        (SyntaxError.reportAt (SyntaxError.position (text.toList.take k)) said)) ∧
      Dialect.statement.parse (Statement.wrap collection text) = .error (.statement moved) ∧
      ∀ {α : Type} (engine : QueryEngine) (flatten : α → Except FlattenError Record)
        (objects : List α),
        (engine.named collection).findByPredicate flatten objects text = .error ⟨moved⟩) ∧
    ∀ {α : Type} (engine : QueryEngine) (flatten : α → Except FlattenError Record)
      (objects : List α) (p : Predicate) (other : String), Predicate.parse text = .ok p →
        (engine.named collection).findByPredicate flatten objects text =
          (engine.named other).findByPredicate flatten objects text := by
  refine ⟨fun st => Statement.parse_wrap_eq_ok_iff, ?_,
    fun reason k => Statement.refusedAt_wrap_iff.symm, ?_, ?_⟩
  · intro e refused
    obtain ⟨k, place⟩ := Predicate.exists_refusedAt refused
    obtain ⟨said, worded⟩ := e.reason.exists_worded
    exact ⟨k, said, place, worded⟩
  · rintro reason k said _ refused worded rfl
    exact ⟨Dialect.parse_barePredicate_of_refusedAt refused worded,
      Dialect.parse_statement_of_refusedAt (Statement.refusedAt_wrap_iff.mpr refused) worded,
      fun engine flatten objects => findByPredicate_of_refusedAt refused worded⟩
  · intro α engine flatten objects p other parsed
    rw [findByPredicate_of_parsed parsed, findByPredicate_of_parsed parsed]
    rfl

/-- A name that has to be quoted, in front of a predicate that is refused on its first line and of one
that is refused on its second line. -/
theorem collection_immaterial_of_two_texts :
    Dialect.barePredicate.parse "x ? 'y'" =
      .error (.statement "Line 1, column 3: found '?' expected '='") ∧
    (({} : QueryEngine).named "a\"b").findByPredicate (fun _ => .ok Record.empty) ["object"]
      "x ? 'y'" = .error ⟨"Line 1, column 30: found '?' expected '='"⟩ ∧
    (({} : QueryEngine).named "a\"b").findByPredicate (fun _ => .ok Record.empty) ["object"]
      "x\n  = y" = .error ⟨"Line 2, column 5: found 'y' expected single-quoted string"⟩ := by
  have first : RefusedAt (Predicate.parse "x ? 'y'") "x ? 'y'".toList
      (.expected [.char '='] (some '?')) 2 := by
    refine ⟨⟨5, .expected [.char '='] (some '?')⟩, ?_, rfl, rfl⟩
    with_unfolding_all rfl
  have second : RefusedAt (Predicate.parse "x\n  = y") "x\n  = y".toList
      (.expected [.construct .singleQuoted] (some 'y')) 6 := by
    refine ⟨⟨1, .expected [.construct .singleQuoted] (some 'y')⟩, ?_, rfl, rfl⟩
    with_unfolding_all rfl
  obtain ⟨-, -, -, reports, -⟩ := collection_immaterial "a\"b" "x ? 'y'"
  obtain ⟨bare, -, runs⟩ := reports _ 2 _ _ first (.found '?' (.cons (.char '=') .nil) (.only _)) rfl
  obtain ⟨-, -, -, reports', -⟩ := collection_immaterial "a\"b" "x\n  = y"
  obtain ⟨-, -, runs'⟩ := reports' _ 6 _ _ second
    (.found 'y' (.cons (.construct .singleQuoted) .nil) (.only _)) rfl
  refine ⟨bare.trans ?_, (runs {} _ _).trans ?_, (runs' {} _ _).trans ?_⟩
  · apply congrArg (fun report => Except.error (ParseError.statement report))
    decide +kernel
  · decide +kernel
  · decide +kernel

end QueryEngine

end RecordQuery
