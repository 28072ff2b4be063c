import RecordQuery.Proofs.Index.RecordIndex
import RecordQuery.Proofs.Engine.Groups

/-!
# The answer of a query

A selection that succeeds gives the answer that is defined here by groups alone: the groups whose first
record satisfies the predicate, each replaced by what the policy keeps of its objects.
-/

namespace RecordQuery

variable {α : Type}

namespace QueryEngine

/-- The answer of a predicate over entries. The kinds of the fields are those of the whole batch. -/
def answer (policy : DuplicatePolicy) (entries : List (Record × α)) (p : Predicate) : List α :=
  ((groups entries).filter fun g => g.1.satisfies (kindIn (entries.map Prod.fst)) p).flatMap
    fun g => policy.keeps g.2

variable {flatten : α → Except FlattenError Record} {objects : List α} {records : List Record}

theorem flattenAll_of_flat {position : Nat} (flat : objects.map flatten = records.map .ok) :
    flattenAll flatten position objects = .ok records := by
  induction objects generalizing position records with
  | nil =>
      cases records with
      | nil => rfl
      | cons r rest => cases flat
  | cons object others ih =>
      cases records with
      | nil => cases flat
      | cons r rest =>
          obtain ⟨first, flat⟩ := List.cons.inj flat
          rw [flattenAll, first, ih flat]

theorem length_eq_of_flat (flat : objects.map flatten = records.map .ok) :
    records.length = objects.length := by
  simpa using (congrArg List.length flat).symm

theorem map_fst_zip_of_flat (flat : objects.map flatten = records.map .ok) :
    (records.zip objects).map Prod.fst = records :=
  List.map_fst_zip (Nat.le_of_eq (length_eq_of_flat flat))

/-- The records of data have finite numbers. -/
theorem finite_of_flat {serialize : α → Datum}
    (flat : objects.map (fun object => Record.ofDatum (serialize object)) = records.map .ok) :
    ∀ r ∈ records, r.Finite := by
  intro r mem
  have image : Except.ok r ∈ objects.map fun object => Record.ofDatum (serialize object) := by
    rw [flat]
    exact List.mem_map_of_mem mem
  obtain ⟨object, -, flattened⟩ := List.mem_map.mp image
  exact Record.finite_of_ofDatum flattened

/-- A selection that succeeds gives the answer of the predicate over the entries. -/
theorem select_eq_answer {config : EngineConfig} {p : Predicate} {found : List α}
    (flat : objects.map flatten = records.map .ok) (finite : ∀ r ∈ records, r.Finite)
    (success : select config flatten objects p = .ok found) :
    found = answer config.duplicates (records.zip objects) p := by
  simp only [select, bind_eq_ok_iff, flattenAll_of_flat flat, Except.ok.injEq] at success
  obtain ⟨_, rfl, ⟨index, origins⟩, correlated, success⟩ := success
  have follows := (follows_empty config.duplicates).correlate correlated
  rw [List.nil_append] at follows
  rcases indexing : index.indexAttributes (AttributeRegistry.ofRecords records)
    config.mixedTypes with ⟨built, outcome⟩
  simp only [indexing] at success
  obtain ⟨⟨⟩, rfl, ids, evaluated, result⟩ := success
  obtain rfl := Except.ok.inj result
  have named := AttributeRegistry.wellNamed_ofRecords records
  obtain ⟨stored, indexed⟩ := RecordIndex.indexed_of_indexAttributes named indexing
  have storedFinite : ∀ r ∈ built.records, r.Finite := by
    intro r mem
    rw [stored, follows.stored] at mem
    obtain ⟨g, group, rfl⟩ := List.mem_map.mp mem
    apply finite
    rw [← map_fst_zip_of_flat flat]
    exact fst_mem_of_mem_groups group
  have classified : ∀ field a, (AttributeRegistry.ofRecords records).get? field = some a →
      a.kind = kindIn records field := by
    intro field a found
    rw [(AttributeRegistry.get?_ofRecords_eq_some_iff.mp found).2]
  obtain ⟨ascending, members⟩ :=
    indexed.evaluate_spec named storedFinite classified evaluated
  unfold answer
  apply IdList.flatMap_of_places ascending
  · intro i
    rw [members, stored, follows.stored, map_fst_zip_of_flat flat, List.getElem?_map]
    constructor
    · rintro ⟨r, found, holds⟩
      obtain ⟨g, located, rfl⟩ := Option.map_eq_some_iff.mp found
      exact ⟨g, located, holds⟩
    · rintro ⟨g, found, holds⟩
      exact ⟨g.1, by rw [found]; rfl, holds⟩
  · intro i g found
    rw [follows.kept, objectsAt, found]
    rfl

/-- A selection by fields that are carried fails only by the policies that refuse something. -/
theorem exists_select {config : EngineConfig} {p : Predicate}
    (flat : objects.map flatten = records.map .ok) (tolerant : config.duplicates ≠ .reject)
    (fallback : config.mixedTypes = .textFallback)
    (carried : ∀ field ∈ p.leafFields, Carried records field) :
    ∃ found, select config flatten objects p = .ok found := by
  have correlates : ∃ stored, correlate RecordIndex.empty (Origins.empty config.duplicates) 0
      (records.zip objects) = .ok stored := exists_correlate _ tolerant
  obtain ⟨⟨index, origins⟩, correlated⟩ := correlates
  obtain ⟨built, indexing⟩ :=
    RecordIndex.exists_indexAttributes_textFallback index (AttributeRegistry.ofRecords records)
  have evaluated : built.evaluate p (AttributeRegistry.ofRecords records) =
      .ok (built.matching (AttributeRegistry.ofRecords records) p) :=
    RecordIndex.evaluate_eq_ok_iff.mpr
      ⟨fun field mem => AttributeRegistry.contains_ofRecords_iff.mpr (carried field mem), rfl⟩
  refine ⟨(built.matching (AttributeRegistry.ofRecords records) p).flatMap origins.resolve, ?_⟩
  simp only [select, bind_eq_ok_iff]
  refine ⟨records, flattenAll_of_flat flat, (index, origins), correlated, ?_⟩
  rw [fallback, indexing]
  exact ⟨(), rfl, _, evaluated, rfl⟩

/-- Renaming the objects renames those of the answer. -/
theorem map_answer {β : Type} (policy : DuplicatePolicy) (f : α → β)
    (entries : List (Record × α)) (p : Predicate) :
    (answer policy entries p).map f = answer policy (entries.map (Prod.map id f)) p := by
  have same : (entries.map (Prod.map id f)).map Prod.fst = entries.map Prod.fst := by
    rw [List.map_map]
    rfl
  unfold answer
  rw [same, groups_map, List.filter_map, List.flatMap_map, List.map_flatMap]
  simp only [DuplicatePolicy.map_keeps]
  rfl

/-- Where every object is kept, an object is in the answer exactly if it belongs to an entry for which
the first equal record satisfies the predicate. -/
theorem mem_answer_keepAll {entries : List (Record × α)} {p : Predicate} {object : α} :
    object ∈ answer .keepAll entries p ↔
      ∃ r s, (r, object) ∈ entries ∧
        (entries.map Prod.fst).find? (fun s => s.same r) = some s ∧
        s.satisfies (kindIn (entries.map Prod.fst)) p = true := by
  have alike {g : Record × List α} {r : Record} (same : g.1.same r = true) :
      (entries.map Prod.fst).find? (fun s => s.same r) =
        (entries.map Prod.fst).find? fun s => s.same g.1 :=
    congrArg (fun test => (entries.map Prod.fst).find? test)
      (funext fun s => (Record.same_congr same s).symm)
  rw [answer, List.mem_flatMap]
  constructor
  · rintro ⟨g, kept, inside⟩
    obtain ⟨group, holds⟩ := List.mem_filter.mp kept
    obtain ⟨r, entry, same⟩ := (mem_objects_iff group).mp inside
    exact ⟨r, g.1, entry, (alike same).trans (find?_of_mem_groups group), holds⟩
  · rintro ⟨r, s, entry, first, holds⟩
    obtain ⟨g, group, same⟩ := exists_group entry
    rw [alike same, find?_of_mem_groups group] at first
    obtain rfl := Option.some.inj first
    exact ⟨g, List.mem_filter.mpr ⟨group, holds⟩, (mem_objects_iff group).mpr ⟨r, entry, same⟩⟩

end QueryEngine

end RecordQuery
