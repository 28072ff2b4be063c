import Mathlib.Data.List.Basic
import RecordQuery.Query.Dialect

/-!
# The order of registration

A registry sorts its dialects again at every registration. However the registrations are divided between
a builder and the registry itself, the dialects are asked in the order of one stable sort of all of them,
so that a text comes to the dialect of the greatest priority that takes it, and of those to the one that
was registered first.
-/

namespace RecordQuery

namespace DialectRegistry

/-- The dialects of a priority, in their order. -/
def level (priority : Nat) (dialects : List Dialect) : List Dialect :=
  dialects.filter fun d => d.priority = priority

/-- Whether all registered dialects are asked, by descending priority, and those of one priority in the
order of their registration. -/
structure AskedInOrder (registered asked : List Dialect) : Prop where
  perm : asked.Perm registered
  descending : asked.Pairwise fun a b => b.priority ≤ a.priority
  stable : ∀ priority, level priority asked = level priority registered

/-- Whether a dialect takes the text, has a greater priority than all others that take it and were
registered before it, and no lesser one than those that were registered after it. -/
def Chosen (registered : List Dialect) (text : String) (d : Dialect) : Prop :=
  d.handles text = true ∧ ∃ before after, registered = before ++ d :: after ∧
    (∀ e ∈ before, e.handles text = true → e.priority < d.priority) ∧
    (∀ e ∈ after, e.handles text = true → e.priority ≤ d.priority)

/-! ### Dialects of one priority -/

theorem mem_level {priority : Nat} {dialects : List Dialect} {d : Dialect} :
    d ∈ level priority dialects ↔ d ∈ dialects ∧ d.priority = priority := by
  rw [level, List.mem_filter, decide_eq_true_eq]

theorem level_append (priority : Nat) (front back : List Dialect) :
    level priority (front ++ back) = level priority front ++ level priority back :=
  List.filter_append ..

theorem level_cons (priority : Nat) (d : Dialect) (rest : List Dialect) :
    level priority (d :: rest) =
      if d.priority = priority then d :: level priority rest else level priority rest := by
  rw [level, List.filter_cons]
  simp only [decide_eq_true_eq]
  rfl

/-! ### Sorting at every registration -/

/-- One stable sort puts dialects in the order in which they are asked. -/
theorem askedInOrder_mergeSort (registered : List Dialect) :
    AskedInOrder registered (registered.mergeSort fun a b => b.priority ≤ a.priority) := by
  have transitive (a b c : Dialect) (h : decide (b.priority ≤ a.priority) = true)
      (h' : decide (c.priority ≤ b.priority) = true) : decide (c.priority ≤ a.priority) = true :=
    decide_eq_true (Nat.le_trans (of_decide_eq_true h') (of_decide_eq_true h))
  have total (a b : Dialect) :
      (decide (b.priority ≤ a.priority) || decide (a.priority ≤ b.priority)) = true := by
    simpa using Nat.le_total b.priority a.priority
  refine ⟨List.mergeSort_perm .., ?_, fun priority => ?_⟩
  · exact (List.pairwise_mergeSort transitive total registered).imp of_decide_eq_true
  · -- those of one priority are sorted as they are, so the sort keeps them in their order
    have sorted : (level priority registered).Pairwise
        fun a b => decide (b.priority ≤ a.priority) = true := by
      apply List.pairwise_of_forall_mem_list
      intro a mem b mem'
      exact decide_eq_true (Nat.le_of_eq ((mem_level.mp mem').2.trans (mem_level.mp mem).2.symm))
    have kept := (List.sublist_mergeSort transitive total sorted List.filter_sublist).filter
      fun d => decide (d.priority = priority)
    rw [level, List.filter_filter] at kept
    simp only [Bool.and_self] at kept
    exact (kept.eq_of_length ((List.mergeSort_perm ..).filter _).length_eq.symm).symm

/-- One more registration. -/
theorem AskedInOrder.register {registered : List Dialect} {registry : DialectRegistry}
    (h : AskedInOrder registered registry.dialects) (d : Dialect) :
    AskedInOrder (registered ++ [d]) (registry.register d).dialects := by
  have sorted := askedInOrder_mergeSort (registry.dialects ++ [d])
  refine ⟨sorted.perm.trans (h.perm.append_right [d]), sorted.descending, fun priority => ?_⟩
  calc level priority (registry.register d).dialects
      = level priority (registry.dialects ++ [d]) := sorted.stable priority
    _ = level priority (registered ++ [d]) := by rw [level_append, h.stable, ← level_append]

/-- Any number of further registrations. -/
theorem AskedInOrder.foldl_register {registered : List Dialect} {registry : DialectRegistry}
    (h : AskedInOrder registered registry.dialects) (later : List Dialect) :
    AskedInOrder (registered ++ later) (later.foldl DialectRegistry.register registry).dialects := by
  induction later generalizing registered registry with
  | nil => rwa [List.append_nil]
  | cons d rest ih =>
      rw [List.append_cons]
      exact ih (h.register d)

theorem Builder.dialects_foldl_withDialect (builder : Builder) (gathered : List Dialect) :
    (gathered.foldl withDialect builder).dialects = builder.dialects ++ gathered := by
  induction gathered generalizing builder with
  | nil => exact (List.append_nil _).symm
  | cons d rest ih => rw [List.foldl_cons, ih, withDialect, List.append_assoc, List.singleton_append]

/-- The registry that a builder makes of the early dialects, with the late ones registered one by one. -/
def gathered (early late : List Dialect) : DialectRegistry :=
  late.foldl register (early.foldl Builder.withDialect Builder.empty).build

theorem askedInOrder_gathered (early late : List Dialect) :
    AskedInOrder (early ++ late) (gathered early late).dialects := by
  have none : AskedInOrder [] empty.dialects := ⟨.refl [], .nil, fun _ => rfl⟩
  have built := none.foldl_register early
  rw [gathered, Builder.build, Builder.dialects_foldl_withDialect]
  exact built.foldl_register late

/-! ### The first that takes a text -/

/-- At most one dialect is chosen. -/
theorem Chosen.unique {registered : List Dialect} {text : String} {d e : Dialect}
    (h : Chosen registered text d) (h' : Chosen registered text e) : d = e := by
  obtain ⟨takes, before, after, rfl, less, atMost⟩ := h
  obtain ⟨takes', before', after', same, less', atMost'⟩ := h'
  rcases List.append_eq_append_iff.mp same with ⟨between, rfl, rest⟩ | ⟨between, rfl, rest⟩
  · cases between with
    | nil => exact (List.cons.inj rest).1
    | cons f between =>
        obtain ⟨rfl, rfl⟩ := List.cons.inj rest
        have lesser := less' d (List.mem_append_right _ (List.mem_cons_self ..)) takes
        have noGreater := atMost e (List.mem_append_right _ (List.mem_cons_self ..)) takes'
        exact absurd lesser (Nat.not_lt.mpr noGreater)
  · cases between with
    | nil => exact (List.cons.inj rest).1.symm
    | cons f between =>
        obtain ⟨rfl, rfl⟩ := List.cons.inj rest
        have lesser := less e (List.mem_append_right _ (List.mem_cons_self ..)) takes'
        have noGreater := atMost' d (List.mem_append_right _ (List.mem_cons_self ..)) takes
        exact absurd lesser (Nat.not_lt.mpr noGreater)

namespace AskedInOrder

variable {registered asked : List Dialect} {text : String} {d : Dialect}

/-- There is one order only. -/
theorem unique {other : List Dialect} (h : AskedInOrder registered asked)
    (h' : AskedInOrder registered other) : other = asked := by
  have stable (priority : Nat) : level priority other = level priority asked :=
    (h'.stable priority).trans (h.stable priority).symm
  have perm : other.Perm asked := h'.perm.trans h.perm.symm
  have descending := h.descending
  have descending' := h'.descending
  clear h h'
  induction asked generalizing other with
  | nil => exact perm.eq_nil
  | cons d rest ih =>
      cases other with
      | nil => exact perm.symm.eq_nil.symm
      | cons e others =>
          obtain ⟨first, tail⟩ := List.pairwise_cons.mp descending
          obtain ⟨first', tail'⟩ := List.pairwise_cons.mp descending'
          have le : e.priority ≤ d.priority := by
            rcases List.mem_cons.mp (perm.mem_iff.mp (List.mem_cons_self ..)) with rfl | mem
            · exact Nat.le_refl _
            · exact first e mem
          have ge : d.priority ≤ e.priority := by
            rcases List.mem_cons.mp (perm.mem_iff.mpr (List.mem_cons_self ..)) with rfl | mem
            · exact Nat.le_refl _
            · exact first' d mem
          -- both heads are the first ones of the greatest priority
          have heads := stable d.priority
          rw [level_cons, if_pos (Nat.le_antisymm le ge), level_cons, if_pos rfl] at heads
          obtain ⟨rfl, -⟩ := List.cons.inj heads
          rw [ih (fun priority => ?_) perm.cons_inv tail tail']
          have tails := stable priority
          rw [level_cons, level_cons] at tails
          split at tails
          · exact (List.cons.inj tails).2
          · exact tails

/-- The first dialect that is asked and takes the text is a chosen one. -/
theorem chosen_of_find? (h : AskedInOrder registered asked)
    (found : asked.find? (fun d => d.handles text) = some d) : Chosen registered text d := by
  obtain ⟨takes, front, back, rfl, refuse⟩ := List.find?_eq_some_iff_append.mp found
  have behind := (List.pairwise_cons.mp (List.pairwise_append.mp h.descending).2.1).1
  have atMost (e : Dialect) (mem : e ∈ registered) (takes' : e.handles text = true) :
      e.priority ≤ d.priority := by
    rcases List.mem_append.mp (h.perm.mem_iff.mpr mem) with mem | mem
    · simpa [takes'] using refuse e mem
    · rcases List.mem_cons.mp mem with rfl | mem
      · exact Nat.le_refl _
      · exact behind e mem
  have stable := h.stable d.priority
  rw [level_append, level_cons, if_pos rfl, eq_comm] at stable
  obtain ⟨before, rest, rfl, sameFront, sameBack⟩ := List.filter_eq_append_iff.mp stable
  obtain ⟨between, after, rfl, others, -, -⟩ := List.filter_eq_cons_iff.mp sameBack
  refine ⟨takes, before ++ between, after, (List.append_assoc ..).symm, fun e mem takes' => ?_,
    fun e mem takes' => ?_⟩
  · refine Nat.lt_of_le_of_ne (atMost e ?_ takes') fun same => ?_
    · rw [← List.append_assoc]
      exact List.mem_append_left _ mem
    · -- one of the same priority would have been asked before
      rcases List.mem_append.mp mem with mem | mem
      · have early : e ∈ level d.priority before := mem_level.mpr ⟨mem, same⟩
        rw [level, sameFront] at early
        simpa [takes'] using refuse e (mem_level.mp early).1
      · exact others e mem (decide_eq_true same)
  · exact atMost e (List.mem_append_right _ (List.mem_append_right _ (List.mem_cons_of_mem d mem)))
      takes'

theorem find?_eq_none_iff (h : AskedInOrder registered asked) :
    asked.find? (fun d => d.handles text) = none ↔ ∀ d ∈ registered, d.handles text = false := by
  rw [List.find?_eq_none]
  constructor
  · intro refuse d mem
    exact Bool.eq_false_iff.mpr (refuse d (h.perm.mem_iff.mpr mem))
  · intro refuse d mem
    exact Bool.eq_false_iff.mp (refuse d (h.perm.mem_iff.mp mem))

/-- The first dialect that is asked and takes the text is the chosen one. -/
theorem find?_eq_some_iff (h : AskedInOrder registered asked) :
    asked.find? (fun d => d.handles text) = some d ↔ Chosen registered text d := by
  refine ⟨h.chosen_of_find?, fun chosen => ?_⟩
  cases found : asked.find? fun d => d.handles text with
  | some e => rw [(h.chosen_of_find? found).unique chosen]
  | none =>
      obtain ⟨takes, before, after, rfl, -⟩ := chosen
      have refuses := h.find?_eq_none_iff.mp found d
        (List.mem_append_right _ (List.mem_cons_self ..))
      rw [takes] at refuses
      cases refuses

end AskedInOrder

/-- Where nobody but the registry says that no dialect took charge, a text is refused for that reason
exactly if no dialect takes it. -/
theorem parse_eq_noDialect_iff {registry : DialectRegistry} {text : String}
    (own : ∀ d, registry.detect? text = some d →
      d.parse text ≠ .error (.noDialect text registry.names)) :
    registry.parse text = .error (.noDialect text registry.names) ↔
      registry.detect? text = none := by
  unfold parse
  cases detected : registry.detect? text with
  | some d => simpa using own d detected
  | none => simp

/-- However registrations are divided between a builder and the registry, all dialects are asked, by
descending priority and those of one priority in the order of their registration, and their names are
listed in that order. A text comes to the dialect of the greatest priority that takes it, of those to the
first registered, and the outcome is its own. That no dialect took charge is said, with all names, exactly
where none takes the text. -/
theorem asked_by_priority (early late : List Dialect) :
    AskedInOrder (early ++ late) (gathered early late).dialects ∧
    (∀ asked, AskedInOrder (early ++ late) asked →
      (gathered early late).names = asked.map Dialect.name) ∧
    ∀ text,
      (∀ d, (gathered early late).detect? text = some d ↔ Chosen (early ++ late) text d) ∧
      ((gathered early late).detect? text = none ↔
        ∀ d ∈ early ++ late, d.handles text = false) ∧
      (∀ outcome, (gathered early late).parse text = outcome ↔
        (∃ d, Chosen (early ++ late) text d ∧ outcome = d.parse text) ∨
          (∀ d ∈ early ++ late, d.handles text = false) ∧
            outcome = .error (.noDialect text (gathered early late).names)) ∧
      ((∀ d, Chosen (early ++ late) text d →
          d.parse text ≠ .error (.noDialect text (gathered early late).names)) →
        ((gathered early late).parse text = .error (.noDialect text (gathered early late).names) ↔
          ∀ d ∈ early ++ late, d.handles text = false)) := by
  have ordered := askedInOrder_gathered early late
  refine ⟨ordered, fun asked other => ?_, fun text => ?_⟩
  · rw [names, ordered.unique other]
  · have taken (d : Dialect) : (gathered early late).detect? text = some d ↔
        Chosen (early ++ late) text d := ordered.find?_eq_some_iff
    have left : (gathered early late).detect? text = none ↔
        ∀ d ∈ early ++ late, d.handles text = false := ordered.find?_eq_none_iff
    refine ⟨taken, left, fun outcome => ?_, fun own => ?_⟩
    · rw [← left, parse]
      simp only [← taken]
      cases (gathered early late).detect? text <;> simp [eq_comm]
    · rw [← left]
      exact parse_eq_noDialect_iff fun d detected => own d ((taken d).mp detected)

/-- A dialect of the given name and priority that takes one text and refuses it. -/
def refusing (name : String) (priority : Nat) : Dialect where
  name := name
  handles text := text == "x"
  parse _ := .error (.call name)
  priority := priority

/-- Of two dialects of one priority the one that went through the builder is asked before the other, and
both before the one that was gathered first. Its refusal is the outcome, and a text that none takes is
refused with all names. -/
theorem asked_by_priority_of_tie :
    (gathered [refusing "c" 10, refusing "a" 50] [refusing "b" 50]).names = ["a", "b", "c"] ∧
    (gathered [refusing "c" 10, refusing "a" 50] [refusing "b" 50]).parse "x" =
      .error (.call "a") ∧
    (gathered [refusing "c" 10, refusing "a" 50] [refusing "b" 50]).parse "y" =
      .error (.noDialect "y" ["a", "b", "c"]) := by
  obtain ⟨-, listed, reads⟩ :=
    asked_by_priority [refusing "c" 10, refusing "a" 50] [refusing "b" 50]
  have names := listed [refusing "a" 50, refusing "b" 50, refusing "c" 10] {
    perm := by
      have moved : ([refusing "a" 50, refusing "b" 50] ++ [refusing "c" 10]).Perm
          ([refusing "c" 10] ++ [refusing "a" 50, refusing "b" 50]) := List.perm_append_comm
      exact moved
    descending := by decide
    stable := fun priority => by
      simp only [List.cons_append, List.nil_append, level_cons, refusing]
      split_ifs <;> first | rfl | omega }
  refine ⟨names, ((reads "x").2.2.1 _).mpr (.inl ⟨refusing "a" 50, ?_, rfl⟩), ?_⟩
  · exact ⟨rfl, [refusing "c" 10], [refusing "b" 50], rfl, by simp [refusing], by simp [refusing]⟩
  · have refused : ∀ d ∈ [refusing "c" 10, refusing "a" 50] ++ [refusing "b" 50],
        d.handles "y" = false := by simp [refusing]
    refine (((reads "y").2.2.2 ?_).mpr refused).trans (by rw [names]; rfl)
    rintro d ⟨takes, before, after, split, -⟩
    have mem : d ∈ [refusing "c" 10, refusing "a" 50] ++ [refusing "b" 50] := by
      rw [split]
      exact List.mem_append_right before (List.mem_cons_self ..)
    rw [refused d mem] at takes
    cases takes

end DialectRegistry

end RecordQuery
