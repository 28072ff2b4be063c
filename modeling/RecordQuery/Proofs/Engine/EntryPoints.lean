import RecordQuery.Proofs.Query.Dialect
import RecordQuery.Proofs.Query.Wrapping
import RecordQuery.Proofs.Engine.Answer
import RecordQuery.Proofs.Engine.Satisfaction

/-!
# Entry points

However an engine is asked, a query that is read as a predicate selects by that predicate. A bare
predicate makes the detour of a statement, which changes nothing.
-/

namespace RecordQuery

variable {α : Type}

/-- The ways of asking an engine. -/
inductive EntryPoint where
  /-- By a bare predicate. -/
  | barePredicate
  /-- By a query in call notation. -/
  | call
  /-- By a query in any dialect of the engine. -/
  | detected

namespace EntryPoint

/-- The predicate that a text is read as. -/
def parse (engine : QueryEngine) : EntryPoint → String → Except ParseError Predicate
  | barePredicate => Dialect.barePredicate.parse
  | call => Dialect.call.parse
  | detected => engine.dialects.parse

/-- The objects that satisfy a query. -/
def run (engine : QueryEngine) (flatten : α → Except FlattenError Record) (objects : List α) :
    EntryPoint → String → Except QueryError (List α)
  | barePredicate => engine.findByPredicate flatten objects
  | call => engine.findByCall flatten objects
  | detected => engine.find flatten objects

end EntryPoint

/-- The statement dialect reads a wrapped predicate as that predicate. -/
theorem Dialect.parse_statement_wrap {collection text : String} {p : Predicate}
    (parsed : Predicate.parse text = .ok p) :
    Dialect.statement.parse (Statement.wrap collection text) = .ok p := by
  have expression := Predicate.parse_eq_ok_iff.mp parsed
  have wrapped := Statement.parse_eq_ok_iff.mpr (Grammar.statementText_wrap collection expression)
  unfold Dialect.statement
  dsimp only
  rw [wrapped]

namespace QueryEngine

variable {engine : QueryEngine} {flatten : α → Except FlattenError Record} {objects : List α}

/-- A text that is read as a predicate runs as the selection by that predicate. -/
theorem run_of_parsed {dialect : Dialect} {query : String} {p : Predicate}
    (parsed : dialect.parse query = .ok p) :
    engine.run flatten objects dialect query =
      (select engine.config flatten objects p).mapError QueryError.ofFailure := by
  unfold run
  rw [parsed]
  cases selected : select engine.config flatten objects p with
  | error e => simp [selected, Except.mapError]
  | ok result => simp [selected, Except.mapError]

/-- A text that is refused ends in the words of the dialect, whatever the objects are. -/
theorem run_of_refused {dialect : Dialect} {query : String} {e : ParseError}
    (refused : dialect.parse query = .error e) :
    engine.run flatten objects dialect query = .error ⟨e.message⟩ := by
  unfold run
  rw [refused]
  rfl

/-- A query runs in the dialect that takes charge of it. -/
theorem find_of_detected {query : String} {dialect : Dialect}
    (detected : engine.dialects.detect? query = some dialect) :
    engine.find flatten objects query = engine.run flatten objects dialect query := by
  unfold find
  rw [detected]

end QueryEngine

namespace EntryPoint

variable {engine : QueryEngine} {flatten : α → Except FlattenError Record} {objects : List α}

/-- A text that is read as a predicate runs as the selection by that predicate. -/
theorem run_of_parsed {entry : EntryPoint} {query : String} {p : Predicate}
    (parsed : entry.parse engine query = .ok p) :
    entry.run engine flatten objects query =
      (QueryEngine.select engine.config flatten objects p).mapError QueryError.ofFailure := by
  cases entry with
  | barePredicate =>
      have bare := Dialect.parse_barePredicate_eq_ok_iff.mp parsed
      exact QueryEngine.run_of_parsed (Dialect.parse_statement_wrap bare)
  | call => exact QueryEngine.run_of_parsed parsed
  | detected =>
      change engine.dialects.parse query = .ok p at parsed
      unfold DialectRegistry.parse at parsed
      cases detected : engine.dialects.detect? query with
      | none =>
          rw [detected] at parsed
          cases parsed
      | some dialect =>
          rw [detected] at parsed
          rw [run, QueryEngine.find_of_detected detected]
          exact QueryEngine.run_of_parsed parsed

/-- A run that succeeds selects by the predicate that the text is read as. -/
theorem select_of_run {entry : EntryPoint} {query : String} {p : Predicate} {found : List α}
    (parsed : entry.parse engine query = .ok p)
    (ran : entry.run engine flatten objects query = .ok found) :
    QueryEngine.select engine.config flatten objects p = .ok found := by
  rw [run_of_parsed parsed] at ran
  cases selected : QueryEngine.select engine.config flatten objects p with
  | error e =>
      rw [selected] at ran
      cases ran
  | ok result =>
      rw [selected] at ran
      exact congrArg Except.ok (Except.ok.inj ran)

end EntryPoint

/-- Whatever the settings and the entry point, the answer of a query that succeeds consists of the
groups of equal records whose first record satisfies the predicate, each replaced by what the duplicate
policy keeps of its objects. Numeric are the fields of which the last carrier holds a number. -/
theorem EntryPoint.found_eq_answer (engine : QueryEngine) (serialize : α → Datum)
    (entry : EntryPoint) (objects : List α) (records : List Record) (query : String)
    (p : Predicate) (found : List α)
    (flat : objects.map (fun object => Record.ofDatum (serialize object)) = records.map .ok)
    (parsed : entry.parse engine query = .ok p)
    (ran : entry.run engine (fun object => Record.ofDatum (serialize object)) objects query =
      .ok found) :
    (∀ r s : Record, r.same s = true ↔ r.Alike s) ∧
      found = ((QueryEngine.groups (records.zip objects)).filter
        fun g => g.1.Satisfies (LastHoldsNumber records) p).flatMap
          fun g => engine.config.duplicates.keeps g.2 := by
  refine ⟨fun r s => Record.alike_iff.symm, ?_⟩
  have selected := select_of_run parsed ran
  rw [QueryEngine.select_eq_answer flat (QueryEngine.finite_of_flat flat) selected,
    QueryEngine.answer, QueryEngine.map_fst_zip_of_flat flat]
  have tests : (fun g : Record × List α => g.1.satisfies (kindIn records) p) =
      fun g => decide (g.1.Satisfies (LastHoldsNumber records) p) :=
    funext fun g => Bool.eq_iff_iff.mpr ((Record.satisfies_iff p).symm.trans decide_eq_true_iff.symm)
  rw [tests]

/-- The data of eight objects by their numbers. -/
def EntryPoint.exampleDatum : ℕ → Datum
  | 0 => .mapping []
  | 1 => .mapping [(.text "n", .absent)]
  | 2 => .mapping [(.text "n", .integer 1)]
  | 3 => .mapping [(.text "n", .double (some ⟨false, 4612811918334230528, by decide⟩))]
  | 4 => .mapping [(.text "n", .integer 1)]
  | 5 => .mapping [(.text "n", .text "1.0"), (.text "m", .text " 3.0 ")]
  | 6 => .mapping [(.text "n", .text "1.0"), (.text "m", .text "30")]
  | _ => .mapping [(.text "n", .text "x"), (.text "m", .integer 4)]

/-- The records of the eight objects. The last one makes one field plain and the other one numeric. -/
def EntryPoint.exampleRecords : List Record :=
  [.ofList [], .ofList [("n", .null)], .ofList [("n", .number (.integer 1))],
    .ofList [("n", .number (.float ⟨false, 4612811918334230528, by decide⟩))],
    .ofList [("n", .number (.integer 1))], .ofList [("n", .text "1.0"), ("m", .text " 3.0 ")],
    .ofList [("n", .text "1.0"), ("m", .text "30")],
    .ofList [("n", .text "x"), ("m", .number (.integer 4))]]

/-- An absent field, null, whole numbers in equal records and a binary value are found by their texts,
and of two texts the one is found by the number that it spells. -/
theorem EntryPoint.found_eq_answer_of_eight_objects :
    EntryPoint.barePredicate.run ⟨⟨"objects", .keepAll, .textFallback⟩, .standard⟩
        (fun n => Record.ofDatum (exampleDatum n)) [0, 1, 2, 3, 4, 5, 6, 7]
        "(n='null' OR n='1' OR n='2.5' OR (m='3' AND n='1.0'))" = .ok [0, 1, 2, 4, 3, 5] ∧
      (∀ r s : Record, r.same s = true ↔ r.Alike s) ∧
      [0, 1, 2, 4, 3, 5] =
        ((QueryEngine.groups (exampleRecords.zip [0, 1, 2, 3, 4, 5, 6, 7])).filter
          fun g => g.1.Satisfies (LastHoldsNumber exampleRecords)
            (.or [.equal "n" "null", .equal "n" "1", .equal "n" "2.5",
              .and [.equal "m" "3", .equal "n" "1.0"]])).flatMap
          fun g => DuplicatePolicy.keepAll.keeps g.2 := by
  have ran : EntryPoint.barePredicate.run ⟨⟨"objects", .keepAll, .textFallback⟩, .standard⟩
      (fun n => Record.ofDatum (exampleDatum n)) [0, 1, 2, 3, 4, 5, 6, 7]
      "(n='null' OR n='1' OR n='2.5' OR (m='3' AND n='1.0'))" = .ok [0, 1, 2, 4, 3, 5] := by
    decide +kernel
  refine ⟨ran, EntryPoint.found_eq_answer _ exampleDatum .barePredicate _ exampleRecords _ _ _
    ?_ ?_ ran⟩
  · rfl
  · with_unfolding_all rfl

end RecordQuery
