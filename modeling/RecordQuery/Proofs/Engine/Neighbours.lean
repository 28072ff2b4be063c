import RecordQuery.Proofs.Engine.Collapse
import RecordQuery.Proofs.Engine.Failures

/-!
# Neighbours of an object

Three steps of a selection look at the whole batch: fields are classified by their last carrier, equal
records are collapsed, and posting lists are built over all records. Where every tested field holds
numbers alone or none at all, no step is felt by a single object: two runs over different batches select
objects alike whose records agree in the tested fields.
-/

namespace RecordQuery

variable {α β : Type}

/-- Whether each of the given fields holds a number in every record that carries it, or in none. -/
def Uniform (records : List Record) (fields : List String) : Prop :=
  ∀ field ∈ fields, ∃ number : Bool, ∀ r ∈ records, ∀ value, r.get? field = some value →
    value.isNumber = number

/-- The kind of a field that is carried and holds numbers alone, or none at all. -/
theorem kindIn_of_carried {records : List Record} {field : String} {number : Bool}
    (carried : Carried records field)
    (alike : ∀ r ∈ records, ∀ value, r.get? field = some value → value.isNumber = number) :
    kindIn records field = if number then .numeric else .text := by
  unfold kindIn
  cases last : (records.filterMap fun r => r.get? field).getLast? with
  | none =>
      obtain ⟨r, mem, held⟩ := carried
      obtain ⟨value, found⟩ := Option.isSome_iff_exists.mp held
      have member : value ∈ records.filterMap fun r => r.get? field :=
        List.mem_filterMap.mpr ⟨r, mem, found⟩
      rw [List.getLast?_eq_none_iff.mp last] at member
      exact absurd member List.not_mem_nil
  | some value =>
      obtain ⟨r, mem, found⟩ := List.mem_filterMap.mp (List.mem_of_getLast? last)
      exact congrArg (fun b : Bool => if b then AttributeKind.numeric else .text)
        (alike r mem value found)

/-- Equal values of which one is no number are one and the same. -/
theorem FieldValue.eq_of_same_of_text {v w : FieldValue} (same : v.same w = true)
    (text : v.isNumber = false) : v = w := by
  rcases eq_or_floats_of_same same with rfl | ⟨x, y, rfl, rfl, -⟩
  · rfl
  · cases text

/-- Values of a field that is compared as text are equal only where they are one and the same. -/
theorem Uniform.get?_eq_of_text {records : List Record} {fields : List String} {field : String}
    (uniform : Uniform records fields) (mem : field ∈ fields) (carried : Carried records field)
    (text : kindIn records field = .text) {r s : Record} (own : r ∈ records)
    (agree : (r.get? field = none ∧ s.get? field = none) ∨
      ∃ v w, r.get? field = some v ∧ s.get? field = some w ∧ v.same w = true) :
    r.get? field = s.get? field := by
  obtain ⟨number, alike⟩ := uniform field mem
  rcases agree with ⟨absent, absent'⟩ | ⟨v, w, found, found', same⟩
  · rw [absent, absent']
  · rw [kindIn_of_carried carried alike] at text
    have noNumber : v.isNumber = false := by
      rw [alike r own v found]
      simpa using text
    rw [found, found', FieldValue.eq_of_same_of_text same noNumber]

theorem Uniform.left {records others : List Record} {fields : List String}
    (uniform : Uniform (records ++ others) fields) : Uniform records fields := by
  intro field mem
  obtain ⟨number, alike⟩ := uniform field mem
  exact ⟨number, fun r own => alike r (List.mem_append_left others own)⟩

theorem Uniform.right {records others : List Record} {fields : List String}
    (uniform : Uniform (records ++ others) fields) : Uniform others fields := by
  intro field mem
  obtain ⟨number, alike⟩ := uniform field mem
  exact ⟨number, fun r own => alike r (List.mem_append_right records own)⟩

/-- Two batches that are uniform together classify a field alike. -/
theorem Uniform.kindIn_eq {records others : List Record} {fields : List String} {field : String}
    (uniform : Uniform (records ++ others) fields) (mem : field ∈ fields)
    (carried : Carried records field) (carried' : Carried others field) :
    kindIn records field = kindIn others field := by
  obtain ⟨number, alike⟩ := uniform field mem
  rw [kindIn_of_carried carried fun r own => alike r (List.mem_append_left others own),
    kindIn_of_carried carried' fun r own => alike r (List.mem_append_right records own)]

namespace QueryEngine

variable {config : EngineConfig} {records : List Record} {p : Predicate}
  {flatten : α → Except FlattenError Record} {objects : List α}
  {flatten' : β → Except FlattenError Record} {others : List β}

/-- Which failure a selection ends in is decided by the records alone. -/
theorem SelectionFailure.of_flat {e : EvalError}
    (flat : objects.map flatten = records.map .ok) (flat' : others.map flatten' = records.map .ok)
    (failure : SelectionFailure config flatten objects p e) :
    SelectionFailure config flatten' others p e := by
  have own {more : List Record} (flatMore : objects.map flatten = more.map .ok) :
      others.map flatten' = more.map .ok := by
    rw [flat', ← flat, flatMore]
  cases failure with
  | @unflattened before object after fault split first failed =>
      have image : flatten object ∈ records.map Except.ok := by
        rw [← flat, split]
        exact List.mem_map_of_mem (List.mem_append_right before (List.mem_cons_self ..))
      obtain ⟨r, -, held⟩ := List.mem_map.mp image
      rw [failed] at held
      cases held
  | repeated flatMore rejecting repetition => exact .repeated (own flatMore) rejecting repetition
  | mixed flatMore different rejecting misfit =>
      exact .mixed (own flatMore) different rejecting misfit
  | unknown flatMore different fitting missing =>
      exact .unknown (own flatMore) different fitting missing

/-- Selections from objects with the same records succeed together. -/
theorem exists_select_of_select {found : List α} (finite : ∀ r ∈ records, r.Finite)
    (flat : objects.map flatten = records.map .ok) (flat' : others.map flatten' = records.map .ok)
    (selected : select config flatten objects p = .ok found) :
    ∃ found', select config flatten' others p = .ok found' := by
  have ownFinite {γ : Type} {own : γ → Except FlattenError Record} {batch : List γ}
      (flatOwn : batch.map own = records.map .ok) (more : List Record)
      (flatMore : batch.map own = more.map .ok) : ∀ r ∈ more, r.Finite := by
    have same : more = records :=
      List.map_injective_iff.mpr (fun _ _ => Except.ok.inj) (flatMore.symm.trans flatOwn)
    exact same ▸ finite
  cases outcome : select config flatten' others p with
  | ok found' => exact ⟨found', rfl⟩
  | error e =>
      have failure := selectionFailure_of_select (ownFinite flat') outcome
      have failed := select_of_selectionFailure (ownFinite flat) (failure.of_flat flat' flat)
      rw [selected] at failed
      cases failed

/-- The fields that a successful selection tests are carried. -/
theorem carried_of_select {found : List α} (flat : objects.map flatten = records.map .ok)
    (selected : select config flatten objects p = .ok found) :
    ∀ field ∈ p.leafFields, Carried records field := by
  simp only [select, bind_eq_ok_iff, flattenAll_of_flat flat, Except.ok.injEq] at selected
  obtain ⟨_, rfl, ⟨index, origins⟩, -, selected⟩ := selected
  obtain ⟨-, -, ids, evaluated, -⟩ := selected
  intro field mem
  exact AttributeRegistry.contains_ofRecords_iff.mp
    ((RecordIndex.evaluate_eq_ok_iff.mp evaluated).1 field mem)

/-- Where every tested field holds numbers alone or none at all and every object is kept, the objects
together with their positions can be selected from too. The selection succeeds with the same objects, and
takes a position exactly if the record there satisfies the predicate. -/
theorem exists_select_zipIdx {found : List α} (keeping : config.duplicates = .keepAll)
    (finite : ∀ r ∈ records, r.Finite) (flat : objects.map flatten = records.map .ok)
    (uniform : Uniform records p.leafFields)
    (selected : select config flatten objects p = .ok found) :
    ∃ numbered, select config (fun entry => flatten entry.1) objects.zipIdx p = .ok numbered ∧
      numbered.map Prod.fst = found ∧
      ∀ i object r, objects[i]? = some object → records[i]? = some r →
        ((object, i) ∈ numbered ↔ r.satisfies (kindIn records) p = true) := by
  have carried := carried_of_select flat selected
  obtain ⟨numbered, taken⟩ := exists_select_of_select finite flat (flat_zipIdx flat) selected
  have found_eq := select_eq_answer flat finite selected
  have numbered_eq := select_eq_answer (flat_zipIdx flat) finite taken
  rw [keeping] at found_eq numbered_eq
  refine ⟨numbered, taken, ?_, ?_⟩
  · rw [found_eq, numbered_eq, map_fst_answer_zipIdx]
  · intro i object r located record
    obtain ⟨s, mem, first, same⟩ := exists_first record
    have alike : s.satisfies (kindIn records) p = r.satisfies (kindIn records) p := by
      refine Record.satisfies_congr (fun _ _ => rfl) (Record.agreeOn_of_same same _) ?_
      intro field test text
      exact uniform.get?_eq_of_text test (carried field test) text mem
        (Record.get?_cases_of_same same field)
    rw [numbered_eq, mem_answer_zipIdx flat located record, first, ← alike]
    simp only [Option.some.injEq, exists_eq_left']

end QueryEngine

namespace EntryPoint

/-- Asks for the objects together with their positions, which tell equal objects apart and do not count
for the records. -/
def runNumbered (engine : QueryEngine) (flatten : α → Except FlattenError Record)
    (objects : List α) (entry : EntryPoint) (query : String) :
    Except QueryError (List (α × Nat)) :=
  entry.run engine (fun numbered => flatten numbered.1) objects.zipIdx query

/-- A run that succeeds where every tested field holds numbers alone or none at all selects a position
by the record there. -/
theorem exists_runNumbered {engine : QueryEngine} (keeping : engine.config.duplicates = .keepAll)
    {serialize : α → Datum} {objects : List α} {records : List Record} {entry : EntryPoint}
    {query : String} {p : Predicate} {found : List α}
    (flat : objects.map (fun object => Record.ofDatum (serialize object)) = records.map .ok)
    (parsed : entry.parse engine query = .ok p) (uniform : Uniform records p.leafFields)
    (ran : entry.run engine (fun object => Record.ofDatum (serialize object)) objects query =
      .ok found) :
    ∃ numbered,
      entry.runNumbered engine (fun object => Record.ofDatum (serialize object)) objects query =
        .ok numbered ∧
      numbered.map Prod.fst = found ∧
      (∀ field ∈ p.leafFields, Carried records field) ∧
      ∀ i object r, objects[i]? = some object → records[i]? = some r →
        ((object, i) ∈ numbered ↔ r.satisfies (kindIn records) p = true) := by
  have selected := select_of_run parsed ran
  obtain ⟨numbered, taken, unnumbered, members⟩ := QueryEngine.exists_select_zipIdx keeping
    (QueryEngine.finite_of_flat flat) flat uniform selected
  refine ⟨numbered, ?_, unnumbered, QueryEngine.carried_of_select flat selected, members⟩
  rw [runNumbered, run_of_parsed parsed, taken]
  rfl

end EntryPoint

/-- Whether an object is selected depends on the tested fields of its own record and on their kinds.
Two runs by one predicate are taken, over any two batches, with any two engines that keep every object.
If each tested field holds a number wherever a record of either batch carries it, or nowhere, then objects
whose records agree in the tested fields are both selected or both not, whatever else their batches and
records hold and wherever they stand. -/
theorem EntryPoint.selected_iff_of_agreeOn (engine₁ engine₂ : QueryEngine)
    (keeping₁ : engine₁.config.duplicates = .keepAll)
    (keeping₂ : engine₂.config.duplicates = .keepAll)
    (serialize₁ : α → Datum) (serialize₂ : β → Datum) (objects₁ : List α) (objects₂ : List β)
    (records₁ records₂ : List Record)
    (flat₁ : objects₁.map (fun object => Record.ofDatum (serialize₁ object)) = records₁.map .ok)
    (flat₂ : objects₂.map (fun object => Record.ofDatum (serialize₂ object)) = records₂.map .ok)
    (entry₁ entry₂ : EntryPoint) (query₁ query₂ : String) (p : Predicate)
    (parsed₁ : entry₁.parse engine₁ query₁ = .ok p)
    (parsed₂ : entry₂.parse engine₂ query₂ = .ok p)
    (uniform : Uniform (records₁ ++ records₂) p.leafFields) (found₁ : List α) (found₂ : List β)
    (ran₁ : entry₁.run engine₁ (fun object => Record.ofDatum (serialize₁ object)) objects₁ query₁ =
      .ok found₁)
    (ran₂ : entry₂.run engine₂ (fun object => Record.ofDatum (serialize₂ object)) objects₂ query₂ =
      .ok found₂) :
    ∃ numbered₁ numbered₂,
      entry₁.runNumbered engine₁ (fun object => Record.ofDatum (serialize₁ object)) objects₁
        query₁ = .ok numbered₁ ∧ numbered₁.map Prod.fst = found₁ ∧
      entry₂.runNumbered engine₂ (fun object => Record.ofDatum (serialize₂ object)) objects₂
        query₂ = .ok numbered₂ ∧ numbered₂.map Prod.fst = found₂ ∧
      ∀ i j object₁ object₂ r₁ r₂, objects₁[i]? = some object₁ → records₁[i]? = some r₁ →
        objects₂[j]? = some object₂ → records₂[j]? = some r₂ → r₁.AgreeOn p.leafFields r₂ →
        ((object₁, i) ∈ numbered₁ ↔ (object₂, j) ∈ numbered₂) := by
  obtain ⟨numbered₁, taken₁, unnumbered₁, carried₁, members₁⟩ :=
    exists_runNumbered keeping₁ flat₁ parsed₁ uniform.left ran₁
  obtain ⟨numbered₂, taken₂, unnumbered₂, carried₂, members₂⟩ :=
    exists_runNumbered keeping₂ flat₂ parsed₂ uniform.right ran₂
  refine ⟨numbered₁, numbered₂, taken₁, unnumbered₁, taken₂, unnumbered₂, ?_⟩
  intro i j object₁ object₂ r₁ r₂ located₁ record₁ located₂ record₂ agree
  have alike : r₁.satisfies (kindIn records₁) p = r₂.satisfies (kindIn records₂) p := by
    refine Record.satisfies_congr ?_ agree ?_
    · exact fun field mem => uniform.kindIn_eq mem (carried₁ field mem) (carried₂ field mem)
    · intro field mem text
      exact uniform.left.get?_eq_of_text mem (carried₁ field mem) text
        (List.mem_of_getElem? record₁) (agree field mem)
  rw [members₁ i object₁ r₁ located₁ record₁, members₂ j object₂ r₂ located₂ record₂, alike]

namespace QueryEngine

/-- A zero of the given sign and a text. -/
def labelledZero (object : Bool × String) : Datum :=
  .mapping [(.text "a", .double (some ⟨object.1, 0, infinity_double_pos⟩)),
    (.text "b", .text object.2)]

/-- The record of such an object. -/
def labelledRecord (object : Bool × String) : Record :=
  Record.ofList
    [("a", .number (.float ⟨object.1, 0, infinity_double_pos⟩)), ("b", .text object.2)]

end QueryEngine

open QueryEngine

/-- Zero, which is collapsed with negative zero in one batch, and negative zero alone in another one,
asked for in two dialects. -/
theorem EntryPoint.selected_iff_of_two_zeros :
    ∃ numbered₁ numbered₂,
      EntryPoint.barePredicate.runNumbered ⟨keepingAll "objects", .standard⟩
        (fun object => Record.ofDatum (labelledZero object)) [(false, "x"), (true, "x")] "a = '0'" =
          .ok numbered₁ ∧
      numbered₁.map Prod.fst = [(false, "x"), (true, "x")] ∧
      EntryPoint.call.runNumbered ⟨⟨"things", .keepAll, .reject⟩, .standard⟩
        (fun object => Record.ofDatum (labelledZero object)) [(true, "y")] "equal(\"a\", \"0\")" =
          .ok numbered₂ ∧
      numbered₂.map Prod.fst = [(true, "y")] ∧
      (((true, "x"), 1) ∈ numbered₁ ↔ ((true, "y"), 0) ∈ numbered₂) := by
  have uniform : Uniform ([(false, "x"), (true, "x")].map labelledRecord ++
      [(true, "y")].map labelledRecord) (Predicate.equal "a" "0").leafFields := by
    intro field mem
    obtain rfl := List.mem_singleton.mp mem
    refine ⟨true, fun r own value held => ?_⟩
    simp only [List.map_cons, List.map_nil, List.cons_append, List.nil_append, List.mem_cons,
      List.not_mem_nil, or_false] at own
    rcases own with rfl | rfl | rfl <;> (obtain rfl := Option.some.inj held; rfl)
  have parsed₁ : EntryPoint.barePredicate.parse ⟨keepingAll "objects", .standard⟩ "a = '0'" =
      .ok (.equal "a" "0") := by with_unfolding_all rfl
  have written : (Predicate.equal "a" "0").writeCall = "equal(\"a\", \"0\")" := by decide
  have parsed₂ : EntryPoint.call.parse ⟨⟨"things", .keepAll, .reject⟩, .standard⟩
      "equal(\"a\", \"0\")" = .ok (.equal "a" "0") :=
    Dialect.parse_call_eq_ok_iff.mpr (written ▸ Predicate.parseCall_writeCall rfl)
  have ran₁ : EntryPoint.barePredicate.run ⟨keepingAll "objects", .standard⟩
      (fun object => Record.ofDatum (labelledZero object)) [(false, "x"), (true, "x")] "a = '0'" =
        .ok [(false, "x"), (true, "x")] := by
    rw [EntryPoint.run_of_parsed parsed₁]
    decide +kernel
  have ran₂ : EntryPoint.call.run ⟨⟨"things", .keepAll, .reject⟩, .standard⟩
      (fun object => Record.ofDatum (labelledZero object)) [(true, "y")]
        "equal(\"a\", \"0\")" = .ok [(true, "y")] := by
    rw [EntryPoint.run_of_parsed parsed₂]
    decide +kernel
  obtain ⟨numbered₁, numbered₂, taken₁, same₁, taken₂, same₂, members⟩ :=
    EntryPoint.selected_iff_of_agreeOn _ _ rfl rfl labelledZero labelledZero
      [(false, "x"), (true, "x")] [(true, "y")] _ _ rfl rfl .barePredicate .call _ _ _ parsed₁
      parsed₂ uniform _ _ ran₁ ran₂
  refine ⟨numbered₁, numbered₂, taken₁, same₁, taken₂, same₂, ?_⟩
  refine members 1 0 _ _ (labelledRecord (true, "x")) (labelledRecord (true, "y")) rfl rfl rfl rfl ?_
  intro field mem
  obtain rfl := List.mem_singleton.mp mem
  exact .inr ⟨_, _, rfl, rfl, by decide⟩

end RecordQuery
