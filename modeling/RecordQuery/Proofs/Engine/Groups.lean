import RecordQuery.Engine
import RecordQuery.Proofs.Index.IdMap
import RecordQuery.Proofs.Origins

/-!
# Groups of equal records

Entries are grouped by the equality of their records, the groups in the order of their first entries.
Storing the entries one after the other leads to these groups: the index holds their first records, and
the origins hold what the policy keeps of their objects.
-/

namespace RecordQuery

variable {α : Type}

/-- The objects that the policy keeps of those with equal records. -/
def DuplicatePolicy.keeps (policy : DuplicatePolicy) (objects : List α) : List α :=
  match policy with
  | .keepFirst => objects.head?.toList
  | .keepLast => objects.getLast?.toList
  | .keepAll => objects
  | .reject => objects.head?.toList

theorem DuplicatePolicy.map_keeps {β : Type} (policy : DuplicatePolicy) (f : α → β)
    (objects : List α) : (policy.keeps objects).map f = policy.keeps (objects.map f) := by
  cases policy with
  | keepFirst => simp [keeps, Option.toList_map]
  | keepLast => simp [keeps, Option.toList_map]
  | keepAll => rfl
  | reject => simp [keeps, Option.toList_map]

theorem DuplicatePolicy.keeps_eq_nil_iff {policy : DuplicatePolicy} {objects : List α} :
    policy.keeps objects = [] ↔ objects = [] := by
  cases policy <;> cases objects <;> simp [keeps]

/-- Where the policy keeps what it keeps of some origins, it keeps after one more what it keeps of all of
them, by whatever the origins are looked at. Under the rejecting policy that is the first one. -/
theorem DuplicatePolicy.map_extended {β : Type} {policy : DuplicatePolicy} {kept : List (Origin α)}
    {f : Origin α → β} {images : List β} (origin : Origin α)
    (held : kept.map f = policy.keeps images) :
    (Origins.extended policy kept origin).map f = policy.keeps (images ++ [f origin]) := by
  cases images with
  | nil =>
      obtain rfl : kept = [] := List.map_eq_nil_iff.mp (held.trans (keeps_eq_nil_iff.mpr rfl))
      cases policy <;> rfl
  | cons first more =>
      have nonempty : kept.isEmpty = false := by
        rw [List.isEmpty_eq_false_iff, Ne, ← List.map_eq_nil_iff (f := f), held, keeps_eq_nil_iff]
        exact List.cons_ne_nil first more
      rw [Origins.extended, if_neg (by simp [nonempty])]
      cases policy with
      | keepFirst => simpa [Origins.combine, DuplicatePolicy.keeps] using held
      | keepLast =>
          change [f origin] = ((first :: more) ++ [f origin]).getLast?.toList
          rw [List.getLast?_concat]
          rfl
      | keepAll =>
          rw [Origins.combine, List.map_append, held]
          rfl
      | reject => simpa [Origins.combine, DuplicatePolicy.keeps] using held

namespace QueryEngine

/-- The entries whose record equals the given one. -/
def equals (r : Record) (entries : List (Record × α)) : List (Record × α) :=
  entries.filter fun entry => r.same entry.1

/-- The entries whose record differs from the given one. -/
def others (r : Record) (entries : List (Record × α)) : List (Record × α) :=
  entries.filter fun entry => !r.same entry.1

/-- The groups of entries with equal records: the first record of each group and all its objects. -/
def groups : List (Record × α) → List (Record × List α)
  | [] => []
  | (r, object) :: rest =>
    (r, object :: (equals r rest).map Prod.snd) :: groups (others r rest)
termination_by entries => entries.length
decreasing_by exact Nat.lt_succ_of_le (List.length_filter_le _ rest)

theorem mem_equals {r : Record} {entry : Record × α} {entries : List (Record × α)} :
    entry ∈ equals r entries ↔ entry ∈ entries ∧ r.same entry.1 = true :=
  List.mem_filter

theorem mem_others {r : Record} {entry : Record × α} {entries : List (Record × α)} :
    entry ∈ others r entries ↔ entry ∈ entries ∧ r.same entry.1 = false := by
  rw [others, List.mem_filter, Bool.not_eq_true']

/-- Every entry has a group of its record. -/
theorem exists_group {entries : List (Record × α)} {entry : Record × α} (mem : entry ∈ entries) :
    ∃ g ∈ groups entries, g.1.same entry.1 = true := by
  induction entries using groups.induct with
  | case1 => exact absurd mem List.not_mem_nil
  | case2 r object rest ih =>
      rw [groups]
      cases same : r.same entry.1 with
      | true => exact ⟨_, List.mem_cons_self .., same⟩
      | false =>
          have later : entry ∈ rest := by
            rcases List.mem_cons.mp mem with rfl | later
            · rw [Record.same_refl] at same
              cases same
            · exact later
          obtain ⟨g, group, own⟩ := ih (mem_others.mpr ⟨later, same⟩)
          exact ⟨g, List.mem_cons_of_mem _ group, own⟩

/-- The first record of a group is the record of an entry. -/
theorem fst_mem_of_mem_groups {entries : List (Record × α)} {g : Record × List α}
    (mem : g ∈ groups entries) : g.1 ∈ entries.map Prod.fst := by
  induction entries using groups.induct with
  | case1 =>
      rw [groups] at mem
      exact absurd mem List.not_mem_nil
  | case2 r object rest ih =>
      rw [groups] at mem
      rcases List.mem_cons.mp mem with rfl | mem
      · exact List.mem_cons_self ..
      · obtain ⟨entry, kept, own⟩ := List.mem_map.mp (ih mem)
        exact List.mem_cons_of_mem _ (List.mem_map.mpr ⟨entry, (mem_others.mp kept).1, own⟩)

/-- The groups behind the first one have records that differ from its record. -/
theorem same_eq_false_of_mem_groups_others {r : Record} {rest : List (Record × α)}
    {g : Record × List α} (mem : g ∈ groups (others r rest)) : r.same g.1 = false := by
  obtain ⟨entry, kept, own⟩ := List.mem_map.mp (fst_mem_of_mem_groups mem)
  rw [← own]
  exact (mem_others.mp kept).2

/-- The record of a group is the first one of those that equal it. -/
theorem find?_of_mem_groups {entries : List (Record × α)} {g : Record × List α}
    (mem : g ∈ groups entries) :
    (entries.map Prod.fst).find? (fun s => s.same g.1) = some g.1 := by
  induction entries using groups.induct with
  | case1 =>
      rw [groups] at mem
      exact absurd mem List.not_mem_nil
  | case2 r object rest ih =>
      rw [groups] at mem
      rcases List.mem_cons.mp mem with rfl | mem
      · exact List.find?_cons_of_pos (Record.same_refl r)
      · have differ := same_eq_false_of_mem_groups_others mem
        have skipped : (fun entry : Record × α => (!r.same entry.1 && entry.1.same g.1)) =
            fun entry => entry.1.same g.1 := by
          funext entry
          cases equal : entry.1.same g.1 with
          | false => exact Bool.and_false _
          | true =>
              cases same : r.same entry.1 with
              | false => rfl
              | true =>
                  rw [Record.same_trans same equal] at differ
                  cases differ
        have first := ih mem
        rw [others, List.find?_map, List.find?_filter] at first
        rw [List.map_cons, List.find?_cons_of_neg (by simp [differ]), List.find?_map]
        simpa [Function.comp_def, skipped] using first

/-- The objects of a group are those whose records equal its record, in the order of the entries. -/
theorem objects_eq_of_mem_groups {entries : List (Record × α)} {g : Record × List α}
    (mem : g ∈ groups entries) : g.2 = (equals g.1 entries).map Prod.snd := by
  induction entries using groups.induct with
  | case1 =>
      rw [groups] at mem
      exact absurd mem List.not_mem_nil
  | case2 r own rest ih =>
      rw [groups] at mem
      rcases List.mem_cons.mp mem with rfl | mem
      · simp [equals]
      · have differ := same_eq_false_of_mem_groups_others mem
        have first : g.1.same r = false :=
          Bool.eq_false_iff.mpr fun equal => by
            rw [Record.same_symm equal] at differ
            cases differ
        have kept : equals g.1 (others r rest) = equals g.1 rest := by
          unfold equals others
          rw [List.filter_filter]
          apply List.filter_congr
          intro entry _
          cases equal : g.1.same entry.1 with
          | false => exact Bool.false_and _
          | true =>
              cases same : r.same entry.1 with
              | false => rfl
              | true =>
                  rw [Record.same_trans same (Record.same_symm equal)] at differ
                  cases differ
        rw [ih mem, kept, equals, equals, List.filter_cons_of_neg (by simp [first])]

/-- The objects of a group are those whose records equal its record. -/
theorem mem_objects_iff {entries : List (Record × α)} {g : Record × List α}
    (mem : g ∈ groups entries) {object : α} :
    object ∈ g.2 ↔ ∃ r, (r, object) ∈ entries ∧ g.1.same r = true := by
  rw [objects_eq_of_mem_groups mem, List.mem_map]
  constructor
  · rintro ⟨⟨r, own⟩, kept, rfl⟩
    exact ⟨r, mem_equals.mp kept⟩
  · rintro ⟨r, entry, same⟩
    exact ⟨(r, object), mem_equals.mpr ⟨entry, same⟩, rfl⟩

/-- Renaming the objects renames those of the groups. -/
theorem groups_map {β : Type} (f : α → β) (entries : List (Record × α)) :
    groups (entries.map (Prod.map id f)) = (groups entries).map (Prod.map id (List.map f)) := by
  induction entries using groups.induct with
  | case1 => simp [groups]
  | case2 r object rest ih =>
      unfold others at ih
      rw [List.map_cons, Prod.map_apply, id, groups, groups, List.map_cons]
      unfold equals others
      rw [List.filter_map, List.filter_map, ← ih]
      simp [Function.comp_def, Prod.map]

/-- Puts one more object into the group of its record, or into a new group behind all others. -/
def addTo (r : Record) (object : α) : List (Record × List α) → List (Record × List α)
  | [] => [(r, [object])]
  | (first, objects) :: rest =>
    if first.same r then (first, objects ++ [object]) :: rest
    else (first, objects) :: addTo r object rest

/-- The groups of a longer list come about by adding its last entry. -/
theorem groups_concat (entries : List (Record × α)) (r : Record) (object : α) :
    groups (entries ++ [(r, object)]) = addTo r object (groups entries) := by
  induction entries using groups.induct with
  | case1 => simp [groups, equals, others, addTo]
  | case2 first own rest ih =>
      rw [List.cons_append, groups, groups, addTo]
      unfold equals others at ih ⊢
      rw [List.filter_append, List.filter_append]
      by_cases same : first.same r = true
      · simp [same]
      · simp [same, ih]

/-- The objects of a group by its place, none where there is no group. -/
def objectsAt (gs : List (Record × List α)) (i : Nat) : List α := (gs[i]?.map Prod.snd).getD []

/-- The place of the group of a record, which is the end of the list if there is none. -/
def placeOf (r : Record) (gs : List (Record × List α)) : Nat := gs.findIdx fun g => g.1.same r

theorem objectsAt_addTo (r : Record) (object : α) (gs : List (Record × List α)) (i : Nat) :
    objectsAt (addTo r object gs) i =
      if i = placeOf r gs then objectsAt gs i ++ [object] else objectsAt gs i := by
  unfold objectsAt placeOf
  induction gs generalizing i with
  | nil => cases i <;> simp [addTo]
  | cons g rest ih =>
      obtain ⟨first, objects⟩ := g
      unfold addTo
      by_cases same : first.same r = true
      · rw [if_pos same, List.findIdx_cons]
        cases i <;> simp [same]
      · rw [if_neg same, List.findIdx_cons]
        cases i with
        | zero => simp [same]
        | succ i => simp [same, ih]

theorem map_fst_addTo (r : Record) (object : α) (gs : List (Record × List α)) :
    (addTo r object gs).map Prod.fst =
      if gs.any fun g => g.1.same r then gs.map Prod.fst else gs.map Prod.fst ++ [r] := by
  induction gs with
  | nil => rfl
  | cons g rest ih =>
      obtain ⟨first, objects⟩ := g
      unfold addTo
      by_cases same : first.same r = true
      · simp [same]
      · rw [if_neg same, List.map_cons, ih]
        by_cases known : (rest.any fun g => g.1.same r) = true <;> simp [same, known]

/-- An index of the first records of groups stores a record as the groups take it in. -/
theorem insert_spec {index : RecordIndex} {gs : List (Record × List α)} (numbered : index.Numbered)
    (stored : index.records = gs.map Prod.fst) (r : Record) (object : α) :
    (index.insert r).1.records = (addTo r object gs).map Prod.fst ∧
      (index.insert r).2 = placeOf r gs := by
  have located : index.idOf? r = gs.findIdx? fun g => g.1.same r := by
    rw [numbered.idOf?_eq_findIdx?, stored, List.findIdx?_map]
    rfl
  rw [RecordIndex.insert, placeOf, map_fst_addTo, located]
  cases found : gs.findIdx? fun g => g.1.same r with
  | some id =>
      obtain ⟨bound, place⟩ := List.findIdx?_eq_some_iff_findIdx_eq.mp found
      have known : (gs.any fun g => g.1.same r) = true := by
        rw [← List.findIdx?_isSome, found]
        rfl
      rw [if_pos known]
      exact ⟨stored, place.symm⟩
  | none =>
      have known : (gs.any fun g => g.1.same r) = false := by
        rw [← List.findIdx?_isSome, found]
        rfl
      rw [known, List.findIdx?_eq_none_iff_findIdx_eq.mp found]
      refine ⟨congrArg (· ++ [r]) stored, ?_⟩
      rw [RecordIndex.size, stored, List.length_map]

/-- Whether an index and origins are those of the groups of some entries. -/
structure Follows (policy : DuplicatePolicy) (entries : List (Record × α)) (index : RecordIndex)
    (origins : Origins α) : Prop where
  policy_eq : origins.policy = policy
  numbered : index.Numbered
  stored : index.records = (groups entries).map Prod.fst
  kept : ∀ id, origins.resolve id = policy.keeps (objectsAt (groups entries) id)

theorem follows_empty (policy : DuplicatePolicy) :
    Follows (α := α) policy [] RecordIndex.empty (Origins.empty policy) := by
  refine ⟨rfl, RecordIndex.numbered_empty, ?_, fun id => ?_⟩
  · rw [groups]
    rfl
  · rw [groups]
    cases policy <;> rfl

/-- One more entry leads from the groups before it to those with it. -/
theorem Follows.step {policy : DuplicatePolicy} {done : List (Record × α)} {index : RecordIndex}
    {origins : Origins α} (h : Follows policy done index origins) (r : Record) (position : Nat)
    (object : α) :
    Follows policy (done ++ [(r, object)]) (index.insert r).1
      (origins.insert (index.insert r).2 position object).1 := by
  obtain ⟨records, place⟩ := insert_spec h.numbered h.stored r object
  constructor
  · rw [Origins.policy_insert, h.policy_eq]
  · exact h.numbered.insert r
  · rw [records, groups_concat]
  · intro id
    rw [groups_concat, objectsAt_addTo, ← place]
    rw [Origins.resolve, Origins.slot_insert]
    by_cases own : id = (index.insert r).2
    · subst own
      rw [if_pos rfl, if_pos rfl, h.policy_eq]
      exact DuplicatePolicy.map_extended _ (h.kept _)
    · rw [if_neg own, if_neg own]
      exact h.kept id

/-- Storing a list of entries leads from the groups before it to those with it. -/
theorem Follows.correlate {policy : DuplicatePolicy} {done : List (Record × α)}
    {index built : RecordIndex} {origins noted : Origins α} {position : Nat}
    {entries : List (Record × α)} (h : Follows policy done index origins)
    (success : QueryEngine.correlate index origins position entries = .ok (built, noted)) :
    Follows policy (done ++ entries) built noted := by
  induction entries generalizing done index origins position with
  | nil =>
      obtain ⟨rfl, rfl⟩ := Prod.mk.inj (Except.ok.inj success)
      rwa [List.append_nil]
  | cons entry rest ih =>
      obtain ⟨r, object⟩ := entry
      unfold QueryEngine.correlate at success
      have step := h.step r position object
      rcases inserted : origins.insert (index.insert r).2 position object with ⟨next, e | ⟨⟩⟩
      · simp only [inserted] at success
        cases success
      · simp only [inserted] at success
        rw [inserted] at step
        rw [← List.singleton_append, ← List.append_assoc]
        exact ih step success

/-- Unless equal records are refused, all entries can be stored. -/
theorem exists_correlate {index : RecordIndex} {origins : Origins α} {position : Nat}
    (entries : List (Record × α)) (tolerant : origins.policy ≠ .reject) :
    ∃ built, QueryEngine.correlate index origins position entries = .ok built := by
  induction entries generalizing index origins position with
  | nil => exact ⟨_, rfl⟩
  | cons entry rest ih =>
      obtain ⟨r, object⟩ := entry
      unfold QueryEngine.correlate
      have success := (Origins.insert_eq_ok_iff origins (index.insert r).2 position object).mpr
        (.inr tolerant)
      have same := Origins.policy_insert origins (index.insert r).2 position object
      rcases inserted : origins.insert (index.insert r).2 position object with ⟨next, outcome⟩
      rw [inserted] at success same
      obtain rfl : outcome = .ok () := success
      simp only [inserted]
      apply ih
      rwa [show next.policy = origins.policy from same]

end QueryEngine

end RecordQuery
