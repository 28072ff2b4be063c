import RecordQuery.Proofs.Query.DialectsApart
import RecordQuery.Proofs.Engine.EntryPoints

/-!
# Bare predicates that are taken for statements

The entry point that looks for the dialect of a query tells it by its opening and tries no other dialect
afterwards. A bare predicate is lost there exactly if it begins with a name without quotes that is taken
for the first word of a statement. Every other bare predicate is read, and answered, as it is by the entry
point of bare predicates.
-/

namespace RecordQuery

open Grammar

namespace Dialect

/-- Whether a name without quotes is taken for the first word of a statement: it begins with the letters
of that word, in any case, and no word character follows them. -/
def takenForSelect (name : List Char) : Bool := (stripOpening selectLetters name).any atWordEnd

/-- Whether a text begins, blanks aside, with a name without quotes that is taken for the first word of a
statement. -/
def BeginsAsStatement (text : String) : Prop :=
  ∃ name behind, Run isNameChar (skipBlanks text.toList) name behind ∧ takenForSelect name = true

/-- What follows a text does not matter for whether a word ends in front of it, if one ends there. -/
theorem atWordEnd_append {more behind : List Char} (stops : atWordEnd behind = true) :
    atWordEnd (more ++ behind) = atWordEnd more := by
  cases more with
  | nil => exact stops
  | cons c rest => rfl

theorem atWordEnd_takeWhile {behind : List Char} (accepts : Char → Bool)
    (stops : atWordEnd behind = true) : atWordEnd (behind.takeWhile accepts) = true := by
  cases behind with
  | nil => rfl
  | cons c rest =>
      rw [List.takeWhile_cons]
      split
      · exact stops
      · rfl

/-- What follows an opening does not matter for it. -/
theorem stripOpening_append_of_some {sets : List (List Char)} {name more : List Char}
    (strips : stripOpening sets name = some more) (behind : List Char) :
    stripOpening sets (name ++ behind) = some (more ++ behind) := by
  obtain ⟨opening, matching, rfl⟩ := stripOpening_eq_some_iff.mp strips
  exact stripOpening_eq_some_iff.mpr ⟨opening, matching, List.append_assoc ..⟩

/-- The characters of an opening belong to its sets. -/
theorem forall_mem_of_matching {P : Char → Prop} {sets : List (List Char)} {opening : List Char}
    (matching : List.Forall₂ (fun c set => c ∈ set) opening sets)
    (inside : ∀ set ∈ sets, ∀ c ∈ set, P c) : ∀ c ∈ opening, P c := by
  induction matching with
  | nil => exact fun c mem => absurd mem List.not_mem_nil
  | cons first _ ih =>
      obtain ⟨own, others⟩ := List.forall_mem_cons.mp inside
      exact List.forall_mem_cons.mpr ⟨own _ first, ih others⟩

variable {text : String} {p : Predicate}

/-- A bare predicate is taken for a statement exactly if it begins with a name that is. -/
theorem opensStatement_iff_of_expression {rest : List Char}
    (reading : Expression text.toList p rest) :
    opensStatement text = true ↔ BeginsAsStatement text := by
  constructor
  · intro opens
    obtain ⟨behind, strips, ends⟩ := (Option.any_eq_true _ _).mp opens
    obtain ⟨opening, matching, start⟩ := stripOpening_eq_some_iff.mp strips
    have sets : selectLetters.all (fun set => set.all isNameChar) = true := by decide
    have names : ∀ c ∈ opening, isNameChar c = true :=
      forall_mem_of_matching matching fun set mem =>
        List.all_eq_true.mp (List.all_eq_true.mp sets set mem)
    have head : ∃ c, (skipBlanks text.toList).head? = some c ∧ isNameChar c = true := by
      unfold selectLetters at matching
      cases matching with
      | cons _ _ =>
          rw [start]
          exact ⟨_, rfl, names _ (List.mem_cons_self ..)⟩
    obtain ⟨c, head, inside⟩ := head
    obtain ⟨name, behind', run, -⟩ := reading.exists_name head inside
    have name_eq : name = opening ++ behind.takeWhile isNameChar := by
      rw [(run_iff.mp run).2.1, start, List.takeWhile_append_of_pos names]
    have stripped : stripOpening selectLetters name = some (behind.takeWhile isNameChar) :=
      stripOpening_eq_some_iff.mpr ⟨opening, matching, name_eq⟩
    exact ⟨name, behind', run, (Option.any_eq_true _ _).mpr
      ⟨_, stripped, atWordEnd_takeWhile isNameChar ends⟩⟩
  · rintro ⟨name, behind, run, taken⟩
    obtain ⟨more, strips, ends⟩ := (Option.any_eq_true _ _).mp taken
    obtain ⟨c, head, inside⟩ := run.exists_head
    obtain ⟨name', behind', run', compares⟩ := reading.exists_name head inside
    have same : behind = behind' := (run_iff.mp run).2.2.trans (run_iff.mp run').2.2.symm
    have whole : skipBlanks text.toList = name ++ behind := by
      rw [(run_iff.mp run).2.1, (run_iff.mp run).2.2, List.takeWhile_append_dropWhile]
    have stops : atWordEnd behind = true := atWordEnd_of_sign (same ▸ compares) (by decide)
    refine (Option.any_eq_true _ _).mpr ⟨more ++ behind, ?_, ?_⟩
    · rw [whole]
      exact stripOpening_append_of_some strips behind
    · rw [atWordEnd_append stops]
      exact ends

end Dialect

namespace DialectRegistry

open Dialect

variable {text : String} {p : Predicate}

/-- Where no other dialect takes charge of a bare predicate, it comes to its own. -/
theorem detect?_of_barePredicate (read : Predicate.parse text = .ok p) :
    standard.detect? text =
      if opensStatement text then some .statement else some .barePredicate := by
  have reads : Reads .barePredicate text := ⟨p, parse_barePredicate_eq_ok_iff.mpr read⟩
  rw [detect?_standard, opensCall_eq_false_of_reads reads, isBlankText_eq_false_of_reads reads]
  rfl

theorem detect?_of_notTaken (read : Predicate.parse text = .ok p)
    (other : ¬ BeginsAsStatement text) : standard.detect? text = some .barePredicate := by
  have reading := Predicate.parse_eq_ok_iff.mp read
  rw [detect?_of_barePredicate read,
    if_neg fun opens => other ((opensStatement_iff_of_expression reading).mp opens)]

/-- The statement dialect refuses a bare predicate that is taken for a statement. -/
theorem exists_refusal_of_taken (read : Predicate.parse text = .ok p)
    (taken : BeginsAsStatement text) :
    ∃ report, standard.detect? text = some .statement ∧
      Dialect.statement.parse text = .error (.statement report) := by
  have reading := Predicate.parse_eq_ok_iff.mp read
  have reads : Reads .barePredicate text := ⟨p, parse_barePredicate_eq_ok_iff.mpr read⟩
  cases parsed : Dialect.statement.parse text with
  | ok q => exact absurd ⟨q, parsed⟩ (not_reads_statement_of_reads reads)
  | error e =>
      obtain ⟨error, -, rfl⟩ := parse_statement_eq_error_iff.mp parsed
      refine ⟨_, ?_, rfl⟩
      rw [detect?_of_barePredicate read,
        if_pos ((opensStatement_iff_of_expression reading).mpr taken)]

end DialectRegistry

open Dialect

/-- A bare predicate is read in the standard registry as it is on its own, and answered as by the entry
point of bare predicates, exactly unless it begins with a name without quotes that is taken for the first
word of a statement. If it does, the outcome is that of the statement dialect, which refuses it, whatever
the objects are. -/
theorem QueryEngine.find_barePredicate (text : String) (p : Predicate)
    (read : Predicate.parse text = .ok p) :
    (DialectRegistry.standard.parse text = .ok p ↔ ¬ BeginsAsStatement text) ∧
    (¬ BeginsAsStatement text →
      ∀ {α : Type} (config : EngineConfig) (flatten : α → Except FlattenError Record)
        (objects : List α),
        find ⟨config, .standard⟩ flatten objects text =
          findByPredicate ⟨config, .standard⟩ flatten objects text) ∧
    (BeginsAsStatement text →
      DialectRegistry.standard.parse text = Dialect.statement.parse text ∧
      ∃ report, DialectRegistry.standard.parse text = .error (.statement report) ∧
        ∀ {α : Type} (config : EngineConfig) (flatten : α → Except FlattenError Record)
          (objects : List α),
          find ⟨config, .standard⟩ flatten objects text = .error ⟨report⟩) := by
  have refusal (taken : BeginsAsStatement text) := DialectRegistry.exists_refusal_of_taken read taken
  refine ⟨⟨?_, ?_⟩, ?_, ?_⟩
  · intro kept taken
    obtain ⟨report, detected, refused⟩ := refusal taken
    rw [DialectRegistry.parse, detected] at kept
    cases refused.symm.trans kept
  · intro other
    rw [DialectRegistry.parse, DialectRegistry.detect?_of_notTaken read other]
    exact parse_barePredicate_eq_ok_iff.mpr read
  · intro other α config flatten objects
    rw [find_of_detected (DialectRegistry.detect?_of_notTaken read other),
      run_of_parsed (parse_barePredicate_eq_ok_iff.mpr read)]
    exact (run_of_parsed (Dialect.parse_statement_wrap read)).symm
  · intro taken
    obtain ⟨report, detected, refused⟩ := refusal taken
    have same : DialectRegistry.standard.parse text = Dialect.statement.parse text := by
      rw [DialectRegistry.parse, detected]
    refine ⟨same, report, same.trans refused, fun config flatten objects => ?_⟩
    rw [find_of_detected detected, run_of_refused refused]
    rfl

/-- A name that only begins with the letters of the first word of a statement is read, and one that ends
with them in front of a superscript is taken for it. -/
theorem QueryEngine.find_barePredicate_of_selected :
    DialectRegistry.standard.parse " selected='x'" = .ok (.equal "selected" "x") ∧
      ∃ report, DialectRegistry.standard.parse "sElEcT\u00b2='x'" = .error (.statement report) := by
  have read : Predicate.parse " selected='x'" = .ok (.equal "selected" "x") := by
    with_unfolding_all rfl
  have read' : Predicate.parse "sElEcT\u00b2='x'" = .ok (.equal "sElEcT\u00b2" "x") := by
    with_unfolding_all rfl
  have other : ¬ BeginsAsStatement " selected='x'" := by
    rw [← opensStatement_iff_of_expression (Predicate.parse_eq_ok_iff.mp read)]
    decide
  have taken : BeginsAsStatement "sElEcT\u00b2='x'" := by
    rw [← opensStatement_iff_of_expression (Predicate.parse_eq_ok_iff.mp read')]
    decide
  obtain ⟨-, report, refused, -⟩ := (find_barePredicate _ _ read').2.2 taken
  exact ⟨(find_barePredicate _ _ read).1.mpr other, report, refused⟩

/-- A comparison of a field with the name of that word selects an object by the entry point of bare
predicates, and is refused by the one that looks for the dialect. -/
theorem QueryEngine.select_refused_as_name :
    Predicate.parse "select='x'" = .ok (.equal "select" "x") ∧
      DialectRegistry.standard.parse "select='x'" ≠ .ok (.equal "select" "x") ∧
      findByPredicate {} (fun value => .ok (Record.ofList [("select", .text value)])) ["x"]
        "select='x'" = .ok ["x"] ∧
      find {} (fun value => .ok (Record.ofList [("select", .text value)])) ["x"]
        "select='x'" ≠ .ok ["x"] := by
  have read : Predicate.parse "select='x'" = .ok (.equal "select" "x") := by
    with_unfolding_all rfl
  have taken : BeginsAsStatement "select='x'" := by
    rw [← opensStatement_iff_of_expression (Predicate.parse_eq_ok_iff.mp read)]
    decide
  obtain ⟨report, detected, refused⟩ := DialectRegistry.exists_refusal_of_taken read taken
  refine ⟨read, ?_, ?_, ?_⟩
  · rw [DialectRegistry.parse, detected]
    intro kept
    cases refused.symm.trans kept
  · decide +kernel
  · intro found
    rw [find_of_detected detected, run_of_refused refused] at found
    cases found

end RecordQuery
