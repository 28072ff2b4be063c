import Mathlib.Data.List.Forall2
import Mathlib.Data.List.Induction
import RecordQuery.Query.SyntaxError

/-!
# Words of syntax errors

What a syntax error says is laid down case by case: the words for what was found, for what could have
stood there, and the place in front of them. The words of a report are those of its case, and no other.
-/

namespace RecordQuery

/-- The words for a keyword. -/
inductive Keyword.Worded : Keyword → String → Prop
  | selectWord : Worded .selectWord "SELECT"
  | fromWord : Worded .fromWord "FROM"
  | whereWord : Worded .whereWord "WHERE"
  | andWord : Worded .andWord "AND"
  | orWord : Worded .orWord "OR"

/-- The words for a construct. -/
inductive Construct.Worded : Construct → String → Prop
  | identifier : Worded .identifier "identifier"
  | fieldName : Worded .fieldName "field name"
  | collectionName : Worded .collectionName "collection name"
  | singleQuoted : Worded .singleQuoted "single-quoted string"
  | doubleQuoted : Worded .doubleQuoted "double-quoted string"
  | comparison : Worded .comparison "comparison like language = 'Kotlin'"
  | group : Worded .group "parenthesized expression"
  | equalCall : Worded .equalCall "equal(\"field\", \"value\")"
  | andCall : Worded .andCall "and(expr, expr, ...)"
  | orCall : Worded .orCall "or(expr, expr, ...)"

/-- The words for what could have stood at a place. -/
inductive Expectation.Worded : Expectation → String → Prop
  | char (c : Char) : Worded (.char c) ("'" ++ String.singleton c ++ "'")
  | anyChar : Worded .anyChar "any"
  | otherChar : Worded .otherChar "something else"
  | endOfInput : Worded .endOfInput "end of input"
  | construct {c word} (worded : Construct.Worded c word) : Worded (.construct c) word

/-- Alternatives in one phrase: a comma behind each but the last one, and an "or" in front of that. -/
inductive Alternatives : List String → String → Prop
  | none : Alternatives [] "something else"
  | only (word : String) : Alternatives [word] word
  | several {front : List String} (some : front ≠ []) (last : String) :
      Alternatives (front ++ [last]) (String.join (front.map (· ++ ", ")) ++ "or " ++ last)

/-- The words of a reason. -/
inductive Reason.Worded : Reason → String → Prop
  | found {items words wanted} (c : Char) (each : List.Forall₂ Expectation.Worded items words)
      (phrase : Alternatives words wanted) :
      Worded (.expected items (some c))
        ("found '" ++ String.singleton c ++ "' expected " ++ wanted)
  | ended {items words wanted} (each : List.Forall₂ Expectation.Worded items words)
      (phrase : Alternatives words wanted) :
      Worded (.expected items none) ("found end of input expected " ++ wanted)
  | keyword {k word} (worded : Keyword.Worded k word) :
      Worded (.keyword k) ("expected keyword '" ++ word ++ "'")

/-! ### What is reported -/

theorem Keyword.worded_iff {k : Keyword} {word : String} : k.Worded word ↔ word = k.text := by
  constructor
  · rintro ⟨⟩ <;> rfl
  · rintro rfl
    cases k <;> constructor

theorem Construct.worded_iff {c : Construct} {word : String} : c.Worded word ↔ word = c.text := by
  constructor
  · rintro ⟨⟩ <;> rfl
  · rintro rfl
    cases c <;> constructor

namespace Expectation

theorem quoted_eq (c : Char) : quoted c = "'" ++ String.singleton c ++ "'" :=
  String.toList_injective (by simp [quoted])

theorem worded_iff {item : Expectation} {word : String} : item.Worded word ↔ word = item.text := by
  constructor
  · rintro (c | - | - | - | worded)
    · exact (quoted_eq c).symm
    · rfl
    · rfl
    · rfl
    · exact Construct.worded_iff.mp worded
  · rintro rfl
    cases item with
    | char c =>
        rw [text, quoted_eq]
        exact .char c
    | anyChar => exact .anyChar
    | otherChar => exact .otherChar
    | endOfInput => exact .endOfInput
    | construct c => exact .construct (Construct.worded_iff.mpr rfl)

theorem forall₂_worded_iff {items : List Expectation} {words : List String} :
    List.Forall₂ Worded items words ↔ words = items.map text := by
  have worded : Worded = fun item word => item.text = word := by
    funext item word
    exact propext (worded_iff.trans eq_comm)
  rw [worded, ← List.forall₂_map_left_iff (R := fun word word' : String => word = word'),
    List.forall₂_eq_eq_eq, eq_comm]

/-- In front of two or more alternatives a further one is followed by a comma. -/
theorem alternatives_cons {word : String} {rest : List String} (several : 2 ≤ rest.length) :
    alternatives (word :: rest) = word ++ ", " ++ alternatives rest := by
  match rest, several with
  | _ :: _ :: _, _ => rfl

/-- The last one of several alternatives stands behind an "or". -/
theorem alternatives_concat {front : List String} (some : front ≠ []) (last : String) :
    alternatives (front ++ [last]) = String.join (front.map (· ++ ", ")) ++ "or " ++ last := by
  induction front with
  | nil => exact absurd rfl some
  | cons word rest ih =>
      cases rest with
      | nil => simp [alternatives, String.append_assoc]
      | cons next more =>
          rw [List.cons_append, alternatives_cons (by simp), ih (List.cons_ne_nil next more)]
          simp [String.append_assoc]

theorem alternatives_iff {words : List String} {phrase : String} :
    Alternatives words phrase ↔ phrase = alternatives words := by
  constructor
  · rintro (- | - | ⟨some, last⟩)
    · rfl
    · rfl
    · exact (alternatives_concat some last).symm
  · rintro rfl
    induction words using List.reverseRecOn with
    | nil => exact .none
    | append_singleton front last =>
        cases front with
        | nil => exact .only last
        | cons word rest =>
            rw [alternatives_concat (List.cons_ne_nil word rest)]
            exact .several (List.cons_ne_nil word rest) last

end Expectation

namespace Reason

theorem text_found (items : List Expectation) (c : Char) :
    (expected items (some c)).text = "found '" ++ String.singleton c ++ "' expected " ++
      Expectation.alternatives (items.map Expectation.text) := by
  have opening : "found '" = "found " ++ "'" := by simp
  have closing : "' expected " = "'" ++ " expected " := by simp
  change "found " ++ Expectation.quoted c ++ " expected " ++ _ = _
  rw [Expectation.quoted_eq, opening, closing]
  simp only [String.append_assoc]

/-- A reason is reported in the words of its case. -/
theorem worded_iff {reason : Reason} {said : String} :
    reason.Worded said ↔ said = reason.text := by
  constructor
  · intro worded
    cases worded with
    | found c each phrase =>
        rw [Expectation.alternatives_iff.mp phrase, Expectation.forall₂_worded_iff.mp each,
          text_found]
    | ended each phrase =>
        rw [Expectation.alternatives_iff.mp phrase, Expectation.forall₂_worded_iff.mp each]
        rfl
    | keyword worded =>
        rw [Keyword.worded_iff.mp worded]
        rfl
  · rintro rfl
    cases reason with
    | expected items found =>
        have each := Expectation.forall₂_worded_iff.mpr (Eq.refl (items.map Expectation.text))
        have phrase := Expectation.alternatives_iff.mpr
          (Eq.refl (Expectation.alternatives (items.map Expectation.text)))
        cases found with
        | none => exact .ended each phrase
        | some c =>
            rw [text_found]
            exact .found c each phrase
    | keyword k => exact .keyword (Keyword.worded_iff.mpr rfl)

theorem exists_worded (reason : Reason) : ∃ said, reason.Worded said :=
  ⟨reason.text, worded_iff.mpr rfl⟩

end Reason

namespace SyntaxError

/-! ### Lines and columns -/

/-- The line and the column behind the given characters, both from 1: the newlines are counted and the
characters behind the last one. -/
def position (before : List Char) : Nat × Nat :=
  (before.count '\n' + 1, (before.reverse.takeWhile (· ≠ '\n')).length + 1)

theorem location_eq_position (before : List Char) : location before = position before := by
  induction before using List.reverseRecOn with
  | nil => rfl
  | append_singleton before c ih =>
      have step : location (before ++ [c]) =
          if c = '\n' then ((location before).1 + 1, 1)
          else ((location before).1, (location before).2 + 1) := by
        rw [location, List.foldl_append]
        rfl
      rw [step, ih]
      by_cases newline : c = '\n'
      · simp [position, newline]
      · simp [position, newline]

/-- More characters lead to another line or to a column further right. -/
theorem eq_nil_of_position_append {front more : List Char}
    (same : position (front ++ more) = position front) : more = [] := by
  obtain ⟨lines, columns⟩ := Prod.mk.inj same
  have none : more.count '\n' = 0 := by
    rw [List.count_append] at lines
    omega
  have plain : ∀ c ∈ more.reverse, decide (c ≠ '\n') = true := by
    intro c mem
    have other : c ≠ '\n' := by
      rintro rfl
      exact List.count_eq_zero.mp none (List.mem_reverse.mp mem)
    exact decide_eq_true other
  rw [List.reverse_append, List.takeWhile_append_of_pos plain, List.length_append,
    List.length_reverse] at columns
  exact List.length_eq_zero_iff.mp (by omega)

/-- The places of a text have different lines or columns. -/
theorem position_take_inj {text : List Char} {p q : Nat} (p_le : p ≤ text.length)
    (q_le : q ≤ text.length) (same : position (text.take p) = position (text.take q)) : p = q := by
  wlog order : p ≤ q generalizing p q
  · exact (this q_le p_le same.symm (Nat.le_of_not_le order)).symm
  have split : text.take q = text.take p ++ (text.take q).drop p := by
    have front : (text.take q).take p = text.take p := by
      rw [List.take_take, Nat.min_eq_left order]
    rw [← front, List.take_append_drop]
  rw [split] at same
  have none := congrArg List.length (eq_nil_of_position_append same.symm)
  rw [List.length_drop, List.length_take, List.length_nil] at none
  omega

/-! ### Reports -/

/-- What is said, behind the line and the column that it is said about. -/
def reportAt (place : Nat × Nat) (said : String) : String :=
  "Line " ++ toString place.1 ++ ", column " ++ toString place.2 ++ ": " ++ said

/-- Whether an error stands behind the first `k` characters of a text. -/
def StandsAt (e : SyntaxError) (text : List Char) (k : Nat) : Prop :=
  k + e.remaining = text.length

/-- An error is reported in the words of its reason, at the line and the column behind the characters in
front of it. -/
theorem report_of_standsAt {e : SyntaxError} {text : List Char} {k : Nat}
    (place : e.StandsAt text k) {said : String} (worded : e.reason.Worded said) :
    e.report text = reportAt (position (text.take k)) said := by
  have before : text.length - e.remaining = k := by
    rw [← place, Nat.add_sub_cancel]
  rw [report, before, location_eq_position, Reason.worded_iff.mp worded]
  rfl

/-- An error that stands in a text stands further behind in a longer text of that ending. -/
theorem standsAt_append_iff {e : SyntaxError} {front text : List Char} {k : Nat} :
    e.StandsAt (front ++ text) (front.length + k) ↔ e.StandsAt text k := by
  rw [StandsAt, StandsAt, List.length_append]
  omega

end SyntaxError

/-- Whether a text was refused for a reason that stands behind its first `k` characters. -/
def RefusedAt {β : Type} (outcome : Except SyntaxError β) (text : List Char) (reason : Reason)
    (k : Nat) : Prop :=
  ∃ e, outcome = .error e ∧ e.reason = reason ∧ e.StandsAt text k

/-- Whether a text was refused with a report in these words. -/
def ReportedAs {β : Type} (outcome : Except SyntaxError β) (text : List Char) (message : String) :
    Prop :=
  ∃ k reason said, RefusedAt outcome text reason k ∧ reason.Worded said ∧
    message = SyntaxError.reportAt (SyntaxError.position (text.take k)) said

/-- If an error never stands outside of its text, the report has the words of the error. -/
theorem reportedAs_iff {β : Type} {outcome : Except SyntaxError β} {text : List Char}
    (inside : ∀ e, outcome = .error e → e.remaining ≤ text.length) {message : String} :
    ReportedAs outcome text message ↔ ∃ e, outcome = .error e ∧ message = e.report text := by
  constructor
  · rintro ⟨k, _, said, ⟨e, failed, rfl, place⟩, worded, rfl⟩
    exact ⟨e, failed, (SyntaxError.report_of_standsAt place worded).symm⟩
  · rintro ⟨e, failed, rfl⟩
    have place : e.StandsAt text (text.length - e.remaining) := Nat.sub_add_cancel (inside e failed)
    obtain ⟨said, worded⟩ := e.reason.exists_worded
    exact ⟨_, _, said, ⟨e, failed, rfl, place⟩, worded,
      SyntaxError.report_of_standsAt place worded⟩

end RecordQuery
