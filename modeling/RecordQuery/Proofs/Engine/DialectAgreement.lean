import RecordQuery.Proofs.Query.Detection
import RecordQuery.Proofs.Engine.EntryPoints

/-!
# Agreement of the dialects

A predicate can be put to an engine in five ways: as a bare predicate or in call notation, in either case
to the entry point of its own or to the one that looks for the dialect, and as a statement on any
collection. All five come to the selection by that predicate. The trees for which this is said are all
that there are, since no dialect reads another one.
-/

namespace RecordQuery

theorem Statement.isBranching_of_parse {text : String} {st : Statement}
    (parsed : Statement.parse text = .ok st) : st.predicate.isBranching = true := by
  cases Statement.parse_eq_ok_iff.mp parsed with
  | intro select star word name condition expression => exact expression.isBranching

namespace QueryEngine

section Entries

variable {α : Type} {flatten : α → Except FlattenError Record} {objects : List α}
  {config : EngineConfig} {p : Predicate}

/-- What comes of the selection by a predicate. -/
def selected (config : EngineConfig) (flatten : α → Except FlattenError Record) (objects : List α)
    (p : Predicate) : Except QueryError (List α) :=
  (select config flatten objects p).mapError QueryError.ofFailure

theorem findByPredicate_write (branching : p.isBranching = true) :
    findByPredicate ⟨config, .standard⟩ flatten objects p.write =
      selected config flatten objects p :=
  run_of_parsed (Dialect.parse_statement_wrap (Predicate.parse_write branching))

theorem findByCall_writeCall (branching : p.isBranching = true) :
    findByCall ⟨config, .standard⟩ flatten objects p.writeCall =
      selected config flatten objects p :=
  run_of_parsed (Dialect.parse_call_eq_ok_iff.mpr (Predicate.parseCall_writeCall branching))

theorem find_write (branching : p.isBranching = true) :
    find ⟨config, .standard⟩ flatten objects p.write = selected config flatten objects p := by
  rw [find_of_detected (DialectRegistry.detect?_write p)]
  exact run_of_parsed (Dialect.parse_barePredicate_eq_ok_iff.mpr (Predicate.parse_write branching))

theorem find_writeCall (branching : p.isBranching = true) :
    find ⟨config, .standard⟩ flatten objects p.writeCall = selected config flatten objects p := by
  rw [find_of_detected (DialectRegistry.detect?_writeCall p)]
  exact findByCall_writeCall branching

theorem find_wrap_write (collection : String) (branching : p.isBranching = true) :
    find ⟨config, .standard⟩ flatten objects (Statement.wrap collection p.write) =
      selected config flatten objects p := by
  rw [find_of_detected (DialectRegistry.detect?_wrap collection p.write)]
  exact run_of_parsed (Dialect.parse_statement_wrap (Predicate.parse_write branching))

end Entries

/-- Both dialects express the same queries. The two texts of a tree of which every node has two children
or more are read back as that tree, and through all five entries they have the same result: the same
objects in the same order, or the same error. No dialect reads a tree with a smaller node. -/
theorem dialects_agree :
    (∀ p : Predicate, p.isBranching = true →
      Predicate.parse p.write = .ok p ∧ Predicate.parseCall p.writeCall = .ok p ∧
      ∀ {α : Type} (config : EngineConfig) (flatten : α → Except FlattenError Record)
        (objects : List α) (collection : String),
        findByCall ⟨config, .standard⟩ flatten objects p.writeCall =
          findByPredicate ⟨config, .standard⟩ flatten objects p.write ∧
        find ⟨config, .standard⟩ flatten objects p.write =
          findByPredicate ⟨config, .standard⟩ flatten objects p.write ∧
        find ⟨config, .standard⟩ flatten objects p.writeCall =
          findByPredicate ⟨config, .standard⟩ flatten objects p.write ∧
        find ⟨config, .standard⟩ flatten objects (Statement.wrap collection p.write) =
          findByPredicate ⟨config, .standard⟩ flatten objects p.write) ∧
    (∀ text p, Predicate.parse text = .ok p → p.isBranching = true) ∧
    (∀ text st, Statement.parse text = .ok st → st.predicate.isBranching = true) ∧
    ∀ text p, Predicate.parseCall text = .ok p → p.isBranching = true := by
  refine ⟨?_, fun text p => Predicate.isBranching_of_parse,
    fun text st => Statement.isBranching_of_parse,
    fun text p => Predicate.isBranching_of_parseCall⟩
  intro p branching
  refine ⟨Predicate.parse_write branching, Predicate.parseCall_writeCall branching, ?_⟩
  intro α config flatten objects collection
  rw [findByPredicate_write branching]
  exact ⟨findByCall_writeCall branching, find_write branching, find_writeCall branching,
    find_wrap_write collection branching⟩

/-- Values with both quotes, a backslash, a line end and blanks, and an empty name. -/
theorem dialects_agree_of_quotes :
    let p : Predicate := .or [.equal "say \"it's\"" "it's \"so\"",
      .and [.equal "" "\\\n", .equal " \u00e9" " "]]
    Predicate.parse p.write = .ok p ∧ Predicate.parseCall p.writeCall = .ok p ∧
      find {} (fun _ => .ok Record.empty) ["object"] p.writeCall =
        find {} (fun _ => .ok Record.empty) ["object"] (Statement.wrap "a \"b\"" p.write) := by
  obtain ⟨read, readCall, agree⟩ := dialects_agree.1 (.or [.equal "say \"it's\"" "it's \"so\"",
    .and [.equal "" "\\\n", .equal " \u00e9" " "]]) (by decide)
  obtain ⟨-, -, called, wrapped⟩ := agree {} (fun _ : String => .ok Record.empty) ["object"]
    "a \"b\""
  exact ⟨read, readCall, called.trans wrapped.symm⟩

end QueryEngine

end RecordQuery
