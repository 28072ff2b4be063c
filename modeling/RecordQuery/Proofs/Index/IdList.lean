import Mathlib.Data.List.Sort
import RecordQuery.Index.IdList

/-!
# Merges of ascending lists

On strictly ascending lists the merges are the intersection and the union, and their results are
strictly ascending again. An ascending list is determined by its members.
-/

namespace RecordQuery

namespace IdList

/-- Strictly ascending lists of identifiers. -/
abbrev Ascending (ids : List RecordId) : Prop := ids.Pairwise (· < ·)

/-- Ascending lists with the same members are equal. -/
theorem Ascending.ext {as bs : List RecordId} (h : Ascending as) (h' : Ascending bs)
    (members : ∀ id, id ∈ as ↔ id ∈ bs) : as = bs :=
  List.Pairwise.eq_of_mem_iff h h' members

/-- What lies below the head of an ascending list lies below all of it. -/
theorem Ascending.lt_of_mem {a b id : RecordId} {bs : List RecordId} (h : Ascending (b :: bs))
    (less : a < b) (mem : id ∈ b :: bs) : a < id := by
  rcases List.mem_cons.mp mem with rfl | mem
  · exact less
  · exact Nat.lt_trans less ((List.pairwise_cons.mp h).1 id mem)

theorem Ascending.not_mem_of_lt {a b : RecordId} {bs : List RecordId} (h : Ascending (b :: bs))
    (less : a < b) : a ∉ b :: bs :=
  fun mem => Nat.lt_irrefl _ (h.lt_of_mem less mem)

theorem mem_intersect {as bs : List RecordId} (h : Ascending as) (h' : Ascending bs)
    {id : RecordId} : id ∈ intersect as bs ↔ id ∈ as ∧ id ∈ bs := by
  induction as, bs using intersect.induct with
  | case1 bs => simp [intersect]
  | case2 as _ => cases as <;> simp [intersect]
  | case3 a as b bs less ih =>
      have apart : ¬ (id = a ∧ id ∈ b :: bs) := by
        rintro ⟨rfl, mem⟩
        exact h'.not_mem_of_lt less mem
      rw [intersect, if_pos less, ih (List.pairwise_cons.mp h).2 h', List.mem_cons (l := as),
        or_and_right]
      simp only [apart, false_or]
  | case4 a as b bs notLess less ih =>
      have apart : ¬ (id ∈ a :: as ∧ id = b) := by
        rintro ⟨mem, rfl⟩
        exact h.not_mem_of_lt less mem
      rw [intersect, if_neg notLess, if_pos less, ih h (List.pairwise_cons.mp h').2,
        List.mem_cons (l := bs), and_or_left]
      simp only [apart, false_or]
  | case5 a as b bs notLess notGreater ih =>
      obtain rfl : a = b := Nat.le_antisymm (Nat.not_lt.mp notGreater) (Nat.not_lt.mp notLess)
      rw [intersect, if_neg notLess, if_neg notGreater, List.mem_cons,
        ih (List.pairwise_cons.mp h).2 (List.pairwise_cons.mp h').2, List.mem_cons, List.mem_cons,
        or_and_left]

theorem ascending_intersect {as bs : List RecordId} (h : Ascending as) (h' : Ascending bs) :
    Ascending (intersect as bs) := by
  induction as, bs using intersect.induct with
  | case1 bs => simp [intersect]
  | case2 as _ => cases as <;> simp [intersect]
  | case3 a as b bs less ih =>
      rw [intersect, if_pos less]
      exact ih (List.pairwise_cons.mp h).2 h'
  | case4 a as b bs notLess less ih =>
      rw [intersect, if_neg notLess, if_pos less]
      exact ih h (List.pairwise_cons.mp h').2
  | case5 a as b bs notLess notGreater ih =>
      obtain ⟨first, rest⟩ := List.pairwise_cons.mp h
      obtain ⟨-, rest'⟩ := List.pairwise_cons.mp h'
      rw [intersect, if_neg notLess, if_neg notGreater]
      apply List.pairwise_cons.mpr
      constructor
      · intro id mem
        exact first id ((mem_intersect rest rest').mp mem).1
      · exact ih rest rest'

theorem mem_union {as bs : List RecordId} {id : RecordId} :
    id ∈ union as bs ↔ id ∈ as ∨ id ∈ bs := by
  induction as, bs using union.induct with
  | case1 bs => simp [union]
  | case2 as _ => cases as <;> simp [union]
  | case3 a as b bs less ih =>
      rw [union, if_pos less, List.mem_cons, ih, List.mem_cons (l := as), or_assoc]
  | case4 a as b bs notLess less ih =>
      rw [union, if_neg notLess, if_pos less, List.mem_cons, ih, List.mem_cons (l := bs),
        or_left_comm]
  | case5 a as b bs notLess notGreater ih =>
      obtain rfl : a = b := Nat.le_antisymm (Nat.not_lt.mp notGreater) (Nat.not_lt.mp notLess)
      rw [union, if_neg notLess, if_neg notGreater, List.mem_cons, ih, List.mem_cons,
        List.mem_cons, or_or_distrib_left]

/-- What lies below two lists goes in front of their union. -/
theorem ascending_cons_union {a : RecordId} {as bs : List RecordId} (below : ∀ id ∈ as, a < id)
    (below' : ∀ id ∈ bs, a < id) (rest : Ascending (union as bs)) : Ascending (a :: union as bs) := by
  apply List.pairwise_cons.mpr
  refine ⟨fun id mem => ?_, rest⟩
  cases mem_union.mp mem with
  | inl mem => exact below id mem
  | inr mem => exact below' id mem

theorem ascending_union {as bs : List RecordId} (h : Ascending as) (h' : Ascending bs) :
    Ascending (union as bs) := by
  induction as, bs using union.induct with
  | case1 bs => simpa [union] using h'
  | case2 as _ => cases as <;> simpa only [union] using h
  | case3 a as b bs less ih =>
      obtain ⟨first, rest⟩ := List.pairwise_cons.mp h
      rw [union, if_pos less]
      exact ascending_cons_union first (fun _ => h'.lt_of_mem less) (ih rest h')
  | case4 a as b bs notLess less ih =>
      obtain ⟨first, rest⟩ := List.pairwise_cons.mp h'
      rw [union, if_neg notLess, if_pos less]
      exact ascending_cons_union (fun _ => h.lt_of_mem less) first (ih h rest)
  | case5 a as b bs notLess notGreater ih =>
      obtain rfl : a = b := Nat.le_antisymm (Nat.not_lt.mp notGreater) (Nat.not_lt.mp notLess)
      obtain ⟨first, rest⟩ := List.pairwise_cons.mp h
      obtain ⟨first', rest'⟩ := List.pairwise_cons.mp h'
      rw [union, if_neg notLess, if_neg notGreater]
      exact ascending_cons_union first first' (ih rest rest')

/-- Going through the places of the items that satisfy a condition is going through these items. -/
theorem flatMap_of_places {β γ : Type} {items : List β} {condition : β → Bool} {ids : List RecordId}
    (ascending : Ascending ids)
    (places : ∀ i, i ∈ ids ↔ ∃ item, items[i]? = some item ∧ condition item = true)
    {atPlace : RecordId → List γ} {ofItem : β → List γ}
    (agree : ∀ i item, items[i]? = some item → atPlace i = ofItem item) :
    ids.flatMap atPlace = (items.filter condition).flatMap ofItem := by
  have listed : ids = (items.zipIdx.filter fun entry => condition entry.1).map Prod.snd := by
    apply ascending.ext
    · have places : Ascending (items.zipIdx.map Prod.snd) := by
        rw [List.zipIdx_map_snd]
        exact List.pairwise_lt_range'
      exact places.sublist (List.filter_sublist.map Prod.snd)
    · intro i
      rw [places]
      constructor
      · rintro ⟨item, found, holds⟩
        have numbered : (item, i) ∈ items.zipIdx := List.mem_zipIdx_iff_getElem?.mpr found
        apply List.mem_map.mpr
        exact ⟨(item, i), List.mem_filter.mpr ⟨numbered, holds⟩, rfl⟩
      · intro mem
        obtain ⟨⟨item, j⟩, kept, rfl⟩ := List.mem_map.mp mem
        obtain ⟨numbered, holds⟩ := List.mem_filter.mp kept
        exact ⟨item, List.mem_zipIdx_iff_getElem?.mp numbered, holds⟩
  calc ids.flatMap atPlace
      = (items.zipIdx.filter fun entry => condition entry.1).flatMap fun entry =>
          atPlace entry.2 := by rw [listed, List.flatMap_map]
    _ = (items.zipIdx.filter fun entry => condition entry.1).flatMap fun entry =>
          ofItem entry.1 := by
        apply List.flatMap_congr
        intro entry mem
        exact agree _ _ (List.mem_zipIdx_iff_getElem?.mp (List.mem_filter.mp mem).1)
    _ = ((items.zipIdx.map Prod.fst).filter condition).flatMap ofItem := by
        rw [List.filter_map, List.flatMap_map]
        rfl
    _ = (items.filter condition).flatMap ofItem := by rw [List.zipIdx_map_fst]

end IdList

end RecordQuery
