import RecordQuery.Proofs.Index.States

/-!
# What an index holds

In every state that an index reaches, the posting lists of an indexed field divide the records that were
stored at the last build among their keys, the stored records are different, and the map of identifiers
holds each of them under its own position. Neither a build that fails nor a record that is stored later
breaks this up.

## Implementation notes

The identifiers are filed in ascending order. So the invariant of a build speaks of all identifiers below
a bound, and filing the next one raises the bound.
-/

namespace RecordQuery

open IdList

namespace Postings

/-- Whether posting lists divide the identifiers below a bound among different keys. -/
structure Divides (postings : Postings) (n : Nat) : Prop where
  keys : (postings.lists.map Prod.fst).Nodup
  nonempty : ∀ entry ∈ postings.lists, entry.2 ≠ []
  ascending : ∀ entry ∈ postings.lists, Ascending entry.2
  disjoint : postings.lists.Pairwise fun entry other => entry.2.Disjoint other.2
  whole : (postings.lists.flatMap Prod.snd).Perm (List.range n)

/-- An identifier is put behind the others of its key, or into a list of its own. -/
theorem appendTo_cases (key : IndexKey) (id : RecordId) (lists : List (IndexKey × List RecordId)) :
    (key ∉ lists.map Prod.fst ∧ appendTo key id lists = lists ++ [(key, [id])]) ∨
      ∃ front ids back, lists = front ++ (key, ids) :: back ∧
        appendTo key id lists = front ++ (key, ids ++ [id]) :: back := by
  induction lists with
  | nil => exact .inl ⟨List.not_mem_nil, rfl⟩
  | cons entry rest ih =>
      obtain ⟨k, ids⟩ := entry
      unfold appendTo
      by_cases found : k = key
      · subst found
        exact .inr ⟨[], ids, rest, rfl, if_pos rfl⟩
      · rw [if_neg found]
        rcases ih with ⟨new, result⟩ | ⟨front, ids', back, rfl, result⟩
        · refine .inl ⟨?_, by rw [result]; rfl⟩
          rw [List.map_cons, List.mem_cons, not_or]
          exact ⟨Ne.symm found, new⟩
        · exact .inr ⟨(k, ids) :: front, ids', back, rfl, by rw [result]; rfl⟩

namespace Divides

variable {postings : Postings} {n : Nat}

theorem empty : Postings.empty.Divides 0 :=
  ⟨.nil, fun _ mem => absurd mem List.not_mem_nil, fun _ mem => absurd mem List.not_mem_nil,
    .nil, .refl []⟩

theorem lt_of_mem (h : postings.Divides n) {entry : IndexKey × List RecordId}
    (mem : entry ∈ postings.lists) {i : RecordId} (filed : i ∈ entry.2) : i < n :=
  List.mem_range.mp (h.whole.mem_iff.mp (List.mem_flatMap.mpr ⟨entry, mem, filed⟩))

/-- Lists that hold every identifier once are disjoint. -/
theorem of_whole {lists : List (IndexKey × List RecordId)} (keys : (lists.map Prod.fst).Nodup)
    (nonempty : ∀ entry ∈ lists, entry.2 ≠ []) (ascending : ∀ entry ∈ lists, Ascending entry.2)
    (whole : (lists.flatMap Prod.snd).Perm (List.range n)) : Divides ⟨lists⟩ n :=
  ⟨keys, nonempty, ascending,
    (List.nodup_flatMap.mp (whole.nodup_iff.mpr List.nodup_range)).2, whole⟩

/-- The next identifier is filed under a key of its own. -/
theorem concat (h : postings.Divides n) {key : IndexKey} (new : key ∉ postings.lists.map Prod.fst) :
    Divides ⟨postings.lists ++ [(key, [n])]⟩ (n + 1) := by
  apply of_whole
  · rw [List.map_append]
    refine List.nodup_append.mpr ⟨h.keys, List.nodup_singleton key, fun k mem other last => ?_⟩
    rintro rfl
    rw [List.mem_singleton.mp last] at mem
    exact new mem
  · intro entry mem
    rcases List.mem_append.mp mem with mem | mem
    · exact h.nonempty entry mem
    · rw [List.mem_singleton.mp mem]
      exact List.cons_ne_nil n []
  · intro entry mem
    rcases List.mem_append.mp mem with mem | mem
    · exact h.ascending entry mem
    · rw [List.mem_singleton.mp mem]
      exact List.pairwise_singleton ..
  · rw [List.flatMap_append, List.range_succ]
    exact h.whole.append_right [n]

/-- The next identifier is filed behind the others of its key. -/
theorem extend {front back : List (IndexKey × List RecordId)} {key : IndexKey} {ids : List RecordId}
    (h : Divides ⟨front ++ (key, ids) :: back⟩ n) :
    Divides ⟨front ++ (key, ids ++ [n]) :: back⟩ (n + 1) := by
  have own : (key, ids) ∈ front ++ (key, ids) :: back :=
    List.mem_append_right front (List.mem_cons_self ..)
  have others (entry : IndexKey × List RecordId)
      (mem : entry ∈ front ++ (key, ids ++ [n]) :: back) :
      entry = (key, ids ++ [n]) ∨ entry ∈ front ++ (key, ids) :: back := by
    simp only [List.mem_append, List.mem_cons] at mem ⊢
    tauto
  apply of_whole
  · simpa using h.keys
  · intro entry mem
    rcases others entry mem with rfl | mem
    · exact List.append_ne_nil_of_right_ne_nil ids (List.cons_ne_nil n [])
    · exact h.nonempty entry mem
  · intro entry mem
    rcases others entry mem with rfl | mem
    · refine List.pairwise_append.mpr ⟨h.ascending _ own, List.pairwise_singleton .., ?_⟩
      intro i filed j last
      rw [List.mem_singleton.mp last]
      exact h.lt_of_mem own filed
    · exact h.ascending entry mem
  · have moved : ([n] ++ back.flatMap Prod.snd).Perm (back.flatMap Prod.snd ++ [n]) :=
      List.perm_append_comm
    rw [List.range_succ]
    refine .trans ?_ (h.whole.append_right [n])
    simp only [List.flatMap_append, List.flatMap_cons, List.append_assoc]
    exact (moved.append_left ids).append_left _

/-- The next identifier is filed, under whatever key. -/
theorem add (h : postings.Divides n) (key : IndexKey) : (postings.add key n).Divides (n + 1) := by
  rw [Postings.add]
  rcases appendTo_cases key n postings.lists with ⟨new, result⟩ | ⟨front, ids, back, split, result⟩
  · rw [result]
    exact h.concat new
  · rw [result]
    apply extend
    rwa [← split]

/-- All records are filed, one after the other. -/
theorem addRecords {policy : MixedTypePolicy} {a : Attribute} {records : List Record}
    {built : Postings} (h : postings.Divides n)
    (filed : Postings.addRecords policy a postings n records = .ok built) :
    built.Divides (n + records.length) := by
  induction records generalizing n postings with
  | nil =>
      obtain rfl := Except.ok.inj filed
      exact h
  | cons record rest ih =>
      unfold Postings.addRecords at filed
      cases own : IndexKey.ofRecord policy a record with
      | error e =>
          rw [own] at filed
          cases filed
      | ok key =>
          rw [own] at filed
          rw [List.length_cons, ← Nat.succ_add_eq_add_succ]
          exact ih (h.add key) filed

end Divides

/-- The posting lists of an attribute divide the records among their keys. -/
theorem divides_ofRecords {policy : MixedTypePolicy} {a : Attribute} {records : List Record}
    {built : Postings} (filed : ofRecords policy a records = .ok built) :
    built.Divides records.length := by
  have divided := Divides.empty.addRecords filed
  rwa [Nat.zero_add] at divided

end Postings

namespace RecordIndex

/-- In every state the posting lists of each indexed field divide the identifiers that were given at the
last build: the lists of its different keys are non-empty, ascending and disjoint, and every identifier
stands in one of them. No other field has posting lists. The stored records are different, the map holds
each of them under its own position and nothing else, and a look-up finds the position of the one stored
record that equals the given one. -/
theorem Reached.representation {index : RecordIndex} {last : Option Build}
    (reached : Reached index last) :
    (∀ field, attribute? last field = none → index.postings.get? field = none) ∧
    (∀ field a, attribute? last field = some a →
      ∃ build postings, last = some build ∧ build.size ≤ index.size ∧
        index.postings.get? field = some postings ∧ postings.Divides build.size) ∧
    Record.AllDifferent index.records ∧
    index.ids.Places index.records ∧
    ∀ r id, index.ids.find? r = some id ↔
      ∃ stored, index.records[id]? = some stored ∧ stored.same r = true := by
  obtain ⟨placed, different⟩ := reached.numbered
  refine ⟨fun field unindexed => ?_, fun field a own => ?_, different, placed,
    fun r id => placed.find?_eq_some_iff different⟩
  · rcases reached.postings_cases field with ⟨-, unlisted⟩ | ⟨build, b, _, rfl, own, -, -⟩
    · exact unlisted
    · rw [attribute?, Option.bind_some, own] at unindexed
      cases unindexed
  · rcases reached.postings_cases field with
      ⟨unindexed, -⟩ | ⟨build, b, postings, rfl, -, filed, listed⟩
    · rw [unindexed] at own
      cases own
    · have bound : build.size ≤ index.size := reached.described.size_le
      have divided := Postings.divides_ofRecords filed
      rw [List.length_take_of_le bound] at divided
      exact ⟨build, postings, rfl, bound, listed, divided⟩

/-- The lists of the first field still divide the two records of the failed build, the second field has
none, and the record that was stored afterwards has its identifier. -/
theorem Reached.representation_of_halfBuilt :
    (∃ postings, halfBuilt.postings.get? "a" = some postings ∧ postings.Divides 2) ∧
      halfBuilt.postings.get? "b" = none ∧
      halfBuilt.ids.find? (Record.ofList [("c", .null), ("a", .text "x")]) = some 2 := by
  have registered : twoFields.Registered := .register (.register .empty _) _
  have reached := (((Reached.empty.insert (Record.ofList [("a", .text "x")])).insert
    (Record.ofList [("b", .text "y")])).indexAttributes registered .reject).insert
      (Record.ofList [("a", .text "x"), ("c", .null)])
  obtain ⟨unlisted, listed, -, -, noted⟩ := reached.representation
  refine ⟨?_, unlisted "b" (by decide +kernel), (noted _ 2).mpr ⟨_, rfl, by decide +kernel⟩⟩
  obtain ⟨build, postings, last, -, found, divided⟩ := listed "a" ⟨"a", .text⟩ (by decide +kernel)
  cases last
  exact ⟨postings, found, divided⟩

end RecordIndex

end RecordQuery
