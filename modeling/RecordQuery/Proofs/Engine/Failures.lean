import RecordQuery.Proofs.Failure
import RecordQuery.Proofs.Query.Detection
import RecordQuery.Proofs.Query.ErrorPlaces
import RecordQuery.Proofs.Engine.EntryPoints
import RecordQuery.Proofs.Engine.Repetitions
import RecordQuery.Proofs.Engine.Misfits

/-!
# Failures of a run

A run fails in one of five stages, and what it reports is decided by the first stage that fails: the
text cannot be read, an object has no record, a record is repeated, a numeric field holds a text, or the
predicate tests a field that no record carries. Each stage has an order of its own in which it looks for
what it reports.
-/

namespace RecordQuery

open Record

variable {α : Type}

/-- A sequence of steps fails where its first step does, or its second one behind it. -/
theorem bind_eq_error_iff {ε β γ : Type} {x : Except ε β} {f : β → Except ε γ} {e : ε} :
    (x >>= f) = .error e ↔ x = .error e ∨ ∃ b, x = .ok b ∧ f b = .error e := by
  cases x with
  | error e' => simp [Bind.bind, Except.bind]
  | ok b => simp [Bind.bind, Except.bind]

namespace QueryEngine

/-- The failures of a selection. Every stage supposes that those before it have been passed. -/
inductive SelectionFailure (config : EngineConfig) (flatten : α → Except FlattenError Record)
    (objects : List α) (p : Predicate) : EvalError → Prop
  | unflattened {before object after fault} (split : objects = before ++ object :: after)
      (first : ∀ other ∈ before, ∃ r, flatten other = .ok r)
      (failed : flatten object = .error fault) :
      SelectionFailure config flatten objects p (.unflattened before.length fault)
  | repeated {records : List Record} {i j} (flat : objects.map flatten = records.map .ok)
      (rejecting : config.duplicates = .reject) (repetition : FirstRepetition records i j) :
      SelectionFailure config flatten objects p (.duplicateRecord i j)
  | mixed {records : List Record} {field value} (flat : objects.map flatten = records.map .ok)
      (different : config.duplicates = .reject → AllDifferent records)
      (rejecting : config.mixedTypes = .reject) (misfit : FirstMisfit records field value) :
      SelectionFailure config flatten objects p (.mixedType field value)
  | unknown {records : List Record} {field} (flat : objects.map flatten = records.map .ok)
      (different : config.duplicates = .reject → AllDifferent records)
      (fitting : config.mixedTypes = .reject → ∀ name value, ¬ Misfit records name value)
      (missing : p.FirstUnknown (Carried records) field) :
      SelectionFailure config flatten objects p (.unknownAttribute field)

variable {flatten : α → Except FlattenError Record} {objects : List α} {records : List Record}
  {config : EngineConfig} {p : Predicate} {e : EvalError}

/-! ### Flattening -/

/-- Objects are flattened up to the first one that has no record. -/
theorem flattenAll_of_split {before after : List α} {object : α} {fault : FlattenError}
    (first : ∀ other ∈ before, ∃ r, flatten other = .ok r)
    (failed : flatten object = .error fault) (position : Nat) :
    flattenAll flatten position (before ++ object :: after) =
      .error (.unflattened (position + before.length) fault) := by
  induction before generalizing position with
  | nil =>
      rw [List.nil_append, flattenAll, failed]
      rfl
  | cons other rest ih =>
      obtain ⟨r, flat⟩ := first other (List.mem_cons_self ..)
      have behind := ih (fun o mem => first o (List.mem_cons_of_mem _ mem)) (position + 1)
      rw [List.cons_append, flattenAll, flat, behind, List.length_cons, Nat.add_right_comm,
        Nat.add_assoc]

/-- Either every object has a record, or there is a first one that has none. -/
theorem flat_or_split (flatten : α → Except FlattenError Record) (objects : List α) :
    (∃ records : List Record, objects.map flatten = records.map .ok) ∨
      ∃ before object after fault, objects = before ++ object :: after ∧
        (∀ other ∈ before, ∃ r, flatten other = .ok r) ∧ flatten object = .error fault := by
  induction objects with
  | nil => exact .inl ⟨[], rfl⟩
  | cons object rest ih =>
      cases own : flatten object with
      | error fault =>
          refine .inr ⟨[], object, rest, fault, rfl, ?_, own⟩
          exact fun other mem => absurd mem List.not_mem_nil
      | ok r =>
          obtain ⟨records, flat⟩ | ⟨before, other, after, fault, rfl, first, failed⟩ := ih
          · exact .inl ⟨r :: records, by rw [List.map_cons, List.map_cons, own, flat]⟩
          · refine .inr ⟨object :: before, other, after, fault, rfl, ?_, failed⟩
            exact List.forall_mem_cons.mpr ⟨⟨r, own⟩, first⟩

/-! ### The stages behind it -/

/-- A selection of flat objects fails while they are stored, while they are indexed, or while the
predicate is evaluated. -/
theorem select_eq_error_iff_of_flat (flat : objects.map flatten = records.map .ok) :
    select config flatten objects p = .error e ↔
      correlate RecordIndex.empty (Origins.empty config.duplicates) 0 (records.zip objects) =
        .error e ∨
      ∃ index origins, correlate RecordIndex.empty (Origins.empty config.duplicates) 0
          (records.zip objects) = .ok (index, origins) ∧
        ((index.indexAttributes (.ofRecords records) config.mixedTypes).2 = .error e ∨
          (index.indexAttributes (.ofRecords records) config.mixedTypes).2 = .ok () ∧
          (index.indexAttributes (.ofRecords records) config.mixedTypes).1.evaluate p
            (.ofRecords records) = .error e) := by
  have unit (outcome : Except EvalError Unit) : (∃ u, outcome = .ok u) ↔ outcome = .ok () :=
    ⟨fun ⟨(), success⟩ => success, fun success => ⟨(), success⟩⟩
  simp [select, flattenAll_of_flat flat, bind_eq_error_iff, unit, pure, Except.pure]

/-- A predicate is evaluated on every batch that carries all its fields. -/
theorem evaluate_eq_error_iff {index : RecordIndex} :
    index.evaluate p (.ofRecords records) = .error e ↔
      ∃ field, p.FirstUnknown (Carried records) field ∧ e = .unknownAttribute field := by
  have known : (fun field => (AttributeRegistry.ofRecords records).contains field = true) =
      Carried records := funext fun field => propext AttributeRegistry.contains_ofRecords_iff
  rw [RecordIndex.evaluate_eq_error_iff, known]

section Selection

variable (finite : ∀ records : List Record, objects.map flatten = records.map .ok →
  ∀ r ∈ records, r.Finite)

include finite

/-- What storing the entries of flat objects leaves is indexed as the whole batch would be. -/
theorem indexAttributes_iff_of_correlate (flat : objects.map flatten = records.map .ok)
    {index : RecordIndex} {origins : Origins α}
    (correlated : correlate RecordIndex.empty (Origins.empty config.duplicates) 0
      (records.zip objects) = .ok (index, origins)) (policy : MixedTypePolicy) :
    ((index.indexAttributes (.ofRecords records) policy).2 = .ok () ↔
      (policy = .reject → ∀ field value, ¬ Misfit records field value)) ∧
    ∀ e, (index.indexAttributes (.ofRecords records) policy).2 = .error e ↔
      policy = .reject ∧ ∃ field value, FirstMisfit records field value ∧
        e = .mixedType field value := by
  have follows := (follows_empty config.duplicates).correlate correlated
  rw [List.nil_append] at follows
  have whole := map_fst_zip_of_flat flat
  have storedFinite : ∀ r ∈ index.records, r.Finite := by
    intro r mem
    rw [follows.stored] at mem
    obtain ⟨g, group, rfl⟩ := List.mem_map.mp mem
    exact finite records flat _ (whole ▸ fst_mem_of_mem_groups group)
  have alike (field : String) : index.records.findSome? (Record.misfit? field) =
      records.findSome? (Record.misfit? field) := by
    rw [follows.stored, findSome?_groups fun r s same => misfit?_of_same same field, whole]
  exact ⟨indexAttributes_eq_ok_iff storedFinite alike,
    fun e => indexAttributes_eq_error_iff storedFinite alike⟩

/-- What a selection fails with is one of the given failures. -/
theorem selectionFailure_of_select (failed : select config flatten objects p = .error e) :
    SelectionFailure config flatten objects p e := by
  obtain ⟨records, flat⟩ | ⟨before, object, after, fault, rfl, first, unflat⟩ :=
    flat_or_split flatten objects
  · have whole := map_fst_zip_of_flat flat
    obtain refused | ⟨index, origins, correlated, later⟩ :=
      (select_eq_error_iff_of_flat flat).mp failed
    · obtain ⟨rejecting, i, j, repetition, rfl⟩ := correlate_eq_error_iff.mp refused
      exact .repeated flat rejecting (whole ▸ repetition)
    · have different := exists_correlate_iff.mp ⟨index, origins, correlated⟩
      rw [whole] at different
      obtain ⟨accepts, refuses⟩ :=
        indexAttributes_iff_of_correlate finite flat correlated config.mixedTypes
      obtain refused | ⟨indexed, unknown⟩ := later
      · obtain ⟨rejecting, field, value, misfit, rfl⟩ := (refuses e).mp refused
        exact .mixed flat different rejecting misfit
      · obtain ⟨field, missing, rfl⟩ := evaluate_eq_error_iff.mp unknown
        exact .unknown flat different (accepts.mp indexed) missing
  · rw [select, flattenAll_of_split first unflat] at failed
    obtain rfl := Except.error.inj failed
    rw [Nat.zero_add]
    exact .unflattened rfl first unflat

/-- A selection fails with each of the given failures. -/
theorem select_of_selectionFailure (failure : SelectionFailure config flatten objects p e) :
    select config flatten objects p = .error e := by
  cases failure with
  | @unflattened before object after fault split first failed =>
      rw [select, split, flattenAll_of_split first failed, Nat.zero_add]
      rfl
  | repeated flat rejecting repetition =>
      refine (select_eq_error_iff_of_flat flat).mpr (.inl (correlate_eq_error_iff.mpr ?_))
      rw [map_fst_zip_of_flat flat]
      exact ⟨rejecting, _, _, repetition, rfl⟩
  | mixed flat different rejecting misfit =>
      rw [← map_fst_zip_of_flat flat] at different
      obtain ⟨index, origins, correlated⟩ := exists_correlate_iff.mpr different
      obtain ⟨-, refuses⟩ :=
        indexAttributes_iff_of_correlate finite flat correlated config.mixedTypes
      have refused := (refuses _).mpr ⟨rejecting, _, _, misfit, rfl⟩
      exact (select_eq_error_iff_of_flat flat).mpr (.inr ⟨index, origins, correlated, .inl refused⟩)
  | unknown flat different fitting missing =>
      rw [← map_fst_zip_of_flat flat] at different
      obtain ⟨index, origins, correlated⟩ := exists_correlate_iff.mpr different
      obtain ⟨accepts, -⟩ :=
        indexAttributes_iff_of_correlate finite flat correlated config.mixedTypes
      refine (select_eq_error_iff_of_flat flat).mpr
        (.inr ⟨index, origins, correlated, .inr ⟨accepts.mpr fitting, ?_⟩⟩)
      exact evaluate_eq_error_iff.mpr ⟨_, missing, rfl⟩

end Selection

/-- A failure of a selection is what the query reports, in the words of its case. -/
theorem SelectionFailure.worded_iff {message : String}
    (failure : SelectionFailure config flatten objects p e) :
    e.Worded message ↔ QueryError.ofFailure e = ⟨message⟩ := by
  apply EvalError.worded_iff
  rintro dialect error rfl
  cases failure

end QueryEngine

namespace EntryPoint

/-! ### Reading -/

/-- What a text is read as. A bare predicate is read in the statement that it stands for. -/
def reading (collection : String) : EntryPoint → String → Except ParseError Predicate
  | barePredicate, text => Dialect.statement.parse (Statement.wrap collection text)
  | call, text => Dialect.call.parse text
  | detected, text => DialectRegistry.standard.parse text

/-- The words with which a text is refused: the report of the dialect in charge, and for a text of blanks
in no dialect of its own the names of all dialects. -/
inductive Refused (collection text : String) : EntryPoint → String → Prop
  | barePredicate {message}
      (reported : Dialect.statement.Reports (Statement.wrap collection text) message) :
      Refused collection text .barePredicate message
  | call {message} (reported : Dialect.call.Reports text message) :
      Refused collection text .call message
  | detected {dialect message} (taken : DialectRegistry.standard.detect? text = some dialect)
      (reported : dialect.Reports text message) : Refused collection text .detected message
  | blank (blank : ∀ c ∈ text.toList, isBlank c = true) :
      Refused collection text .detected
        ("No syntax matched query '" ++ text ++ "' (tried: sql, cqn, predicate)")

theorem message_noDialect (text : String) :
    (ParseError.noDialect text ["sql", "cqn", "predicate"]).message =
      "No syntax matched query '" ++ text ++ "' (tried: sql, cqn, predicate)" := by
  have tried : String.intercalate ", " ["sql", "cqn", "predicate"] = "sql, cqn, predicate" := by
    decide
  have behind : "' (tried: sql, cqn, predicate)" = "' (tried: " ++ "sql, cqn, predicate" ++ ")" := by
    decide
  change "No syntax matched query '" ++ text ++ "' (tried: " ++
    String.intercalate ", " ["sql", "cqn", "predicate"] ++ ")" = _
  rw [tried, behind]
  simp only [String.append_assoc]

/-- A text is refused in the given words, and in no other. -/
theorem reading_eq_error_iff {collection text message : String} {entry : EntryPoint} :
    (∃ e, entry.reading collection text = .error e ∧ e.message = message) ↔
      Refused collection text entry message := by
  constructor
  · rintro ⟨e, failed, spoken⟩
    cases entry with
    | barePredicate =>
        exact .barePredicate ((Dialect.reports_iff (by simp)).mpr ⟨e, failed, spoken⟩)
    | call => exact .call ((Dialect.reports_iff (by simp)).mpr ⟨e, failed, spoken⟩)
    | detected =>
        rw [reading, DialectRegistry.parse] at failed
        cases taken : DialectRegistry.standard.detect? text with
        | some dialect =>
            rw [taken] at failed
            have known := DialectRegistry.mem_of_detect?_standard taken
            exact .detected taken ((Dialect.reports_iff known).mpr ⟨e, failed, spoken⟩)
        | none =>
            rw [taken, DialectRegistry.names_standard] at failed
            obtain rfl := Except.error.inj failed
            rw [message_noDialect] at spoken
            have blank := List.all_eq_true.mp (DialectRegistry.detect?_eq_none_iff.mp taken)
            exact spoken ▸ .blank blank
  · intro failure
    cases failure with
    | barePredicate reported => exact (Dialect.reports_iff (by simp)).mp reported
    | call reported => exact (Dialect.reports_iff (by simp)).mp reported
    | detected taken reported =>
        have known := DialectRegistry.mem_of_detect?_standard taken
        rw [reading, DialectRegistry.parse, taken]
        exact (Dialect.reports_iff known).mp reported
    | blank blank =>
        have taken := DialectRegistry.detect?_eq_none_iff.mpr (List.all_eq_true.mpr blank)
        refine ⟨_, ?_, message_noDialect text⟩
        rw [reading, DialectRegistry.parse, taken, DialectRegistry.names_standard]

variable {config : EngineConfig} {flatten : α → Except FlattenError Record} {objects : List α}
  {entry : EntryPoint} {text : String}

/-- A run is a run in the dialect that reads the text, unless no dialect takes charge of it. -/
theorem run_cases (config : EngineConfig) (entry : EntryPoint) (text : String)
    (flatten : α → Except FlattenError Record) (objects : List α) :
    (∃ dialect query, entry.reading config.collection text = dialect.parse query ∧
      entry.run ⟨config, .standard⟩ flatten objects text =
        QueryEngine.run ⟨config, .standard⟩ flatten objects dialect query) ∨
    ∃ e, entry.reading config.collection text = .error e ∧
      entry.run ⟨config, .standard⟩ flatten objects text = .error ⟨e.message⟩ := by
  cases entry with
  | barePredicate =>
      rw [reading, run, QueryEngine.findByPredicate]
      exact .inl ⟨_, _, rfl, rfl⟩
  | call =>
      rw [reading, run, QueryEngine.findByCall]
      exact .inl ⟨_, _, rfl, rfl⟩
  | detected =>
      rw [reading, DialectRegistry.parse, run, QueryEngine.find]
      cases DialectRegistry.standard.detect? text with
      | some dialect => exact .inl ⟨dialect, text, rfl, rfl⟩
      | none => exact .inr ⟨_, rfl, rfl⟩

/-- A text that is refused ends the run in the words of the refusal. -/
theorem run_of_reading_error {e : ParseError}
    (refused : entry.reading config.collection text = .error e) :
    entry.run ⟨config, .standard⟩ flatten objects text = .error ⟨e.message⟩ := by
  obtain ⟨dialect, query, same, ran⟩ | ⟨e', failed, ran⟩ :=
    run_cases config entry text flatten objects
  · rw [ran, QueryEngine.run_of_refused (same ▸ refused)]
  · rw [failed] at refused
    rw [ran, Except.error.inj refused]

/-- A text that is read runs as the selection by what it is read as. -/
theorem run_of_reading_ok {p : Predicate}
    (read : entry.reading config.collection text = .ok p) :
    entry.run ⟨config, .standard⟩ flatten objects text =
      (QueryEngine.select config flatten objects p).mapError QueryError.ofFailure := by
  obtain ⟨dialect, query, same, ran⟩ | ⟨e, failed, ran⟩ :=
    run_cases config entry text flatten objects
  · rw [ran, QueryEngine.run_of_parsed (same ▸ read)]
  · rw [failed] at read
    cases read

/-- The words with which a run fails: those of reading the text, and those of the selection by what it is
read as. -/
inductive Failure (config : EngineConfig) (flatten : α → Except FlattenError Record)
    (objects : List α) (entry : EntryPoint) (text : String) : String → Prop
  | unread {message} (refused : Refused config.collection text entry message) :
      Failure config flatten objects entry text message
  | unselected {p e message} (read : entry.reading config.collection text = .ok p)
      (failed : QueryEngine.SelectionFailure config flatten objects p e)
      (worded : e.Worded message) : Failure config flatten objects entry text message

section Run

variable (finite : ∀ records : List Record, objects.map flatten = records.map .ok →
  ∀ r ∈ records, r.Finite)

include finite

/-- What a run fails with is one of the given failures. -/
theorem failure_of_run {message : String}
    (failed : entry.run ⟨config, .standard⟩ flatten objects text = .error ⟨message⟩) :
    Failure config flatten objects entry text message := by
  cases reading : entry.reading config.collection text with
  | error refusal =>
      rw [run_of_reading_error reading] at failed
      obtain rfl := QueryError.mk.inj (Except.error.inj failed)
      exact .unread (reading_eq_error_iff.mp ⟨refusal, reading, rfl⟩)
  | ok p =>
      rw [run_of_reading_ok reading] at failed
      cases selected : QueryEngine.select config flatten objects p with
      | ok found =>
          rw [selected] at failed
          cases failed
      | error e =>
          rw [selected] at failed
          have failure := QueryEngine.selectionFailure_of_select finite selected
          exact .unselected reading failure (failure.worded_iff.mpr (Except.error.inj failed))

/-- A run fails with each of the given failures. -/
theorem run_of_failure {message : String}
    (failure : Failure config flatten objects entry text message) :
    entry.run ⟨config, .standard⟩ flatten objects text = .error ⟨message⟩ := by
  cases failure with
  | unread refused =>
      obtain ⟨e, failed, rfl⟩ := reading_eq_error_iff.mpr refused
      exact run_of_reading_error failed
  | unselected read failed worded =>
      rw [run_of_reading_ok read, QueryEngine.select_of_selectionFailure finite failed,
        ← failed.worded_iff.mp worded]
      rfl

end Run

/-- A run fails exactly in the given cases and in their words, the first stage that fails being the one
that is reported. An error of reading is the same for all objects and all policies. Records are repeated
where they are found equal, which is where they carry equal values in the same fields. -/
theorem run_fails_iff (config : EngineConfig) (serialize : α → Datum) (objects : List α)
    (entry : EntryPoint) (text : String) :
    (∀ r s : Record, r.same s = true ↔ r.Alike s) ∧ (∀ message,
      entry.run ⟨config, .standard⟩ (fun object => ofDatum (serialize object)) objects text =
        .error ⟨message⟩ ↔
      Failure config (fun object => ofDatum (serialize object)) objects entry text message) ∧
    ∀ message, Refused config.collection text entry message →
      ∀ {β : Type} (flatten : β → Except FlattenError Record) (others : List β)
        (duplicates : DuplicatePolicy) (mixedTypes : MixedTypePolicy),
        entry.run ⟨⟨config.collection, duplicates, mixedTypes⟩, .standard⟩ flatten others text =
          .error ⟨message⟩ := by
  have finite : ∀ records : List Record,
      objects.map (fun object => ofDatum (serialize object)) = records.map .ok →
        ∀ r ∈ records, r.Finite := fun records => QueryEngine.finite_of_flat
  refine ⟨fun r s => alike_iff.symm,
    fun message => ⟨failure_of_run finite, run_of_failure finite⟩, ?_⟩
  intro message refused β flatten others duplicates mixedTypes
  obtain ⟨e, failed, rfl⟩ := reading_eq_error_iff.mpr refused
  exact run_of_reading_error failed

/-- A text of blanks, a call that is not closed, an object that refuses to be represented, three objects
of which the outer ones have equal records, three of which the second one holds a text in a numeric
field, and a field that no object carries. -/
theorem run_fails_iff_of_six_failures :
    run (α := Int) ⟨⟨"objects", .keepAll, .reject⟩, .standard⟩
        (fun n => ofDatum (.integer n)) [1] .detected "\n " =
      .error ⟨"No syntax matched query '\n ' (tried: sql, cqn, predicate)"⟩ ∧
    run (α := Int) ⟨⟨"objects", .keepAll, .reject⟩, .standard⟩
        (fun n => ofDatum (.integer n)) [1] .detected "equal(\n\"a\"" =
      .error ⟨"Line 2, column 4: found end of input expected ','"⟩ ∧
    run (α := Int) ⟨⟨"objects", .keepAll, .reject⟩, .standard⟩
        (fun _ => ofDatum (.failing "bad sector at line 3 column 07")) [1] .barePredicate
        "n = '1'" =
      .error ⟨"Failed to serialize object: bad sector at line 3 column 7"⟩ ∧
    run (α := Int) ⟨⟨"objects", .reject, .reject⟩, .standard⟩
        (fun n => ofDatum (.mapping [(.text "n", .integer n)])) [1, 2, 1] .barePredicate
        "n = '1'" =
      .error ⟨"Objects at positions 0 and 2 flatten to the same record"⟩ ∧
    run (α := Datum) ⟨⟨"objects", .keepAll, .reject⟩, .standard⟩
        (fun d => ofDatum (.mapping [(.text "n", d)])) [.text " 1 ", .text "x", .integer 2]
        .barePredicate "n = '1'" =
      .error ⟨"Attribute 'n' is numeric but a record holds non-numeric value 'x'"⟩ ∧
    run (α := Datum) ⟨⟨"objects", .keepAll, .reject⟩, .standard⟩
        (fun d => ofDatum (.mapping [(.text "m", d)])) [.text "x", .absent] .barePredicate "n = '1'" =
      .error ⟨"Attribute 'n' is not registered for this collection"⟩ := by
  have read : reading "objects" .barePredicate "n = '1'" = .ok (.equal "n" "1") := by
    rw [reading]
    apply Dialect.parse_statement_wrap
    with_unfolding_all rfl
  refine ⟨?_, ?_, ?_, ?_, ?_, ?_⟩
  · have blank : Refused "objects" "\n " .detected
        "No syntax matched query '\n ' (tried: sql, cqn, predicate)" :=
      .blank (List.all_eq_true.mp (by decide))
    exact (run_fails_iff {} (fun _ : Int => .absent) [] .detected "\n ").2.2 _ blank _ [1] .keepAll
      .reject
  · have failed : Predicate.parseCall "equal(\n\"a\"" = .error ⟨0, .expected [.char ','] none⟩ :=
      map_eq_error_iff (f := fun _ => ()).mp (by decide +kernel)
    have taken : DialectRegistry.standard.detect? "equal(\n\"a\"" = some .call := by
      rw [DialectRegistry.detect?_standard, if_neg (by decide +kernel), if_pos (by decide +kernel)]
    have worded := Reason.Worded.ended (.cons (.char ',') .nil) (.only _)
    have unread : Refused "objects" "equal(\n\"a\"" .detected
        "Line 2, column 4: found end of input expected ','" :=
      .detected taken ⟨_, .call, 10, _, _, ⟨_, failed, rfl, rfl⟩, worded, by decide +kernel⟩
    exact (run_fails_iff {} (fun _ : Int => .absent) [] .detected "equal(\n\"a\"").2.2 _ unread _ [1]
      .keepAll .reject
  · obtain ⟨-, fails, -⟩ := run_fails_iff ⟨"objects", .keepAll, .reject⟩
      (fun _ : Int => .failing "bad sector at line 3 column 07") [1] .barePredicate "n = '1'"
    have ends : Refusal.EndsAt "bad sector at line 3 column 07".toList "bad sector".toList 3 7 :=
      ⟨['3'], ['0', '7'], ⟨by decide, by decide, by decide, by decide⟩,
        ⟨by decide, by decide, by decide, by decide⟩, by decide⟩
    have split : [1] = [] ++ (1 : Int) :: [] := rfl
    refine (fails _).mpr (.unselected read (.unflattened split ?_ rfl)
      (.unflattened (.unrepresentable (.refused (.placed (by decide) ends)))))
    exact fun _ mem => absurd mem List.not_mem_nil
  · have repetition : FirstRepetition ([1, 2, 1].map fun n : Int =>
        ofList [("n", .number (.integer n))]) 0 2 :=
      ⟨[ofList [("n", .number (.integer 1))], ofList [("n", .number (.integer 2))]], _, [], rfl,
        rfl, by unfold AllDifferent; decide, by decide⟩
    obtain ⟨-, fails, -⟩ := run_fails_iff ⟨"objects", .reject, .reject⟩
      (fun n : Int => .mapping [(.text "n", .integer n)]) [1, 2, 1] .barePredicate "n = '1'"
    have flat : [1, 2, 1].map (fun n : Int => ofDatum (.mapping [(.text "n", .integer n)])) =
        ([1, 2, 1].map fun n : Int => ofList [("n", .number (.integer n))]).map .ok := rfl
    have failure : QueryEngine.SelectionFailure (α := Int) ⟨"objects", .reject, .reject⟩ _ [1, 2, 1]
        (.equal "n" "1") (.duplicateRecord 0 2) := .repeated flat rfl repetition
    exact (fails _).mpr (.unselected read failure (.duplicateRecord 0 2))
  · obtain ⟨-, fails, -⟩ := run_fails_iff ⟨"objects", .keepAll, .reject⟩
      (fun d : Datum => .mapping [(.text "n", d)]) [.text " 1 ", .text "x", .integer 2]
      .barePredicate "n = '1'"
    have misfit : FirstMisfit [ofList [("n", .text " 1 ")], ofList [("n", .text "x")],
        ofList [("n", .number (.integer 2))]] "n" "x" := by
      refine ⟨misfit_iff.mpr (by decide +kernel), fun other text misfit less => ?_⟩
      have field : (AttributeRegistry.ofRecords [ofList [("n", .text " 1 ")],
          ofList [("n", .text "x")], ofList [("n", .number (.integer 2))]]).toList =
        [⟨"n", .numeric⟩] := rfl
      have only := QueryEngine.Misfit.mem_toList misfit
      rw [field, List.mem_singleton] at only
      obtain rfl : other = "n" := congrArg Attribute.name only
      exact String.lt_irrefl _ less
    exact (fails _).mpr (.unselected read (.mixed rfl nofun rfl misfit) (.mixedType "n" "x"))
  · obtain ⟨-, fails, -⟩ := run_fails_iff ⟨"objects", .keepAll, .reject⟩
      (fun d : Datum => .mapping [(.text "m", d)]) [.text "x", .absent] .barePredicate "n = '1'"
    have records : [Datum.text "x", .absent].map (fun d => ofDatum (.mapping [(.text "m", d)])) =
      [ofList [("m", .text "x")], ofList [("m", .null)]].map .ok := rfl
    refine (fails _).mpr (.unselected read (.unknown records nofun ?_ ⟨[], [], rfl, nofun, ?_⟩)
      (.unknownAttribute "n"))
    · intro _ name value misfit
      have fields : (AttributeRegistry.ofRecords [ofList [("m", .text "x")],
        ofList [("m", .null)]]).toList = [⟨"m", .text⟩] := rfl
      have only := QueryEngine.Misfit.mem_toList misfit
      rw [fields, List.mem_singleton] at only
      cases congrArg Attribute.kind only
    · rintro ⟨r, mem, carried⟩
      simp only [List.mem_cons, List.not_mem_nil, or_false] at mem
      rcases mem with rfl | rfl <;> cases carried

end EntryPoint

end RecordQuery
