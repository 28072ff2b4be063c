import RecordQuery.Query.Call
import RecordQuery.Proofs.Query.Tokens

/-!
# Calls

The grammar of call notation, and the proof that the parser finds exactly its readings. A call begins
with a letter and ends with its closing parenthesis, so the parser finds a reading at its very end and
not only up to blanks. Operand lists that are too short or end with a comma have no reading.
-/

namespace RecordQuery

namespace Grammar

variable {α : Type}

/-- The operand list of a call: two or more operands in parentheses, separated by commas. -/
inductive Operands (operand : Reading α) : Reading (List α)
  | intro {s s₁ s₂ s₃ rest a as} (opening : Padded (Sign '(') s () s₁)
      (first : Padded operand s₁ a s₂) (others : Chain (Sign ',') (Padded operand) s₂ as s₃)
      (closing : Sign ')' s₃ () rest) : Operands operand s (a :: as) rest

/-- Calls: an equality test of a field, or a connective of two or more calls. -/
inductive Call : Reading Predicate
  | equal {s s₁ s₂ s₃ s₄ s₅ rest field value} (name : Letters ['e', 'q', 'u', 'a', 'l'] s () s₁)
      (opening : Padded (Sign '(') s₁ () s₂) (left : Padded Argument s₂ field s₃)
      (comma : Sign ',' s₃ () s₄) (right : Padded Argument s₄ value s₅)
      (closing : Sign ')' s₅ () rest) : Call s (.equal field value) rest
  | conjunction {s s₁ rest ps} (name : Letters ['a', 'n', 'd'] s () s₁)
      (operands : Operands Call s₁ ps rest) : Call s (.and ps) rest
  | disjunction {s s₁ rest ps} (name : Letters ['o', 'r'] s () s₁)
      (operands : Operands Call s₁ ps rest) : Call s (.or ps) rest

/-- The names of the calls that take operand lists. -/
def connectiveNames : List (List Char) := [['a', 'n', 'd'], ['o', 'r']]

/-- What looks like an operand list and is none: it has no operand, or a single one, or a comma behind
its last operand. -/
inductive Malformed : List Char → Prop
  | empty {s s₁ rest} (opening : Padded (Sign '(') s () s₁) (closing : Sign ')' s₁ () rest) :
      Malformed s
  | single {s s₁ s₂ rest p} (opening : Padded (Sign '(') s () s₁) (only : Padded Call s₁ p s₂)
      (closing : Sign ')' s₂ () rest) : Malformed s
  | trailingComma {s s₁ s₂ s₃ s₄ rest p} (opening : Padded (Sign '(') s () s₁)
      (first : Padded Call s₁ p s₂)
      (others : s₃ = s₂ ∨ ∃ ps, Chain (Sign ',') (Padded Call) s₂ ps s₃)
      (comma : Sign ',' s₃ () s₄) (closing : Padded (Sign ')') s₄ () rest) : Malformed s

/-! ### Readings of calls -/

theorem shrinks_argument : Shrinks Argument := by
  intro s value rest reading
  cases reading with
  | intro body =>
      simp only [List.length_cons, List.length_append]
      omega

theorem solid_argument : Solid Argument := by
  intro s value rest reading
  cases reading with
  | intro body => exact ⟨'\x22', rfl, by decide⟩

mutual

theorem Call.length_lt {s rest : List Char} {p : Predicate} :
    Call s p rest → rest.length < s.length
  | .equal name opening left comma right closing => by
      have := shrinks_letters (by decide) _ _ _ name
      have := (shrinks_sign '(').padded _ _ _ opening
      have := shrinks_argument.padded _ _ _ left
      have := shrinks_sign ',' _ _ _ comma
      have := shrinks_argument.padded _ _ _ right
      have := shrinks_sign ')' _ _ _ closing
      omega
  | .conjunction name operands => by
      have := shrinks_letters (by decide) _ _ _ name
      have := operands_length_lt operands
      omega
  | .disjunction name operands => by
      have := shrinks_letters (by decide) _ _ _ name
      have := operands_length_lt operands
      omega

theorem operands_length_lt {s rest : List Char} {ps : List Predicate} :
    Operands Call s ps rest → rest.length < s.length
  | .intro opening first others closing => by
      have := (shrinks_sign '(').padded _ _ _ opening
      have := padded_call_length_lt first
      have := furtherCalls_length_lt others
      have := shrinks_sign ')' _ _ _ closing
      omega

theorem padded_call_length_lt {s rest : List Char} {p : Predicate} :
    Padded Call s p rest → rest.length < s.length
  | .intro before inside after => by
      have := before.length_le
      have := inside.length_lt
      have := after.length_le
      omega

theorem furtherCalls_length_lt {s rest : List Char} {ps : List Predicate} :
    Chain (Sign ',') (Padded Call) s ps rest → rest.length < s.length
  | .one comma last => by
      have := shrinks_sign ',' _ _ _ comma
      have := padded_call_length_lt last
      omega
  | .more comma next others => by
      have := shrinks_sign ',' _ _ _ comma
      have := padded_call_length_lt next
      have := furtherCalls_length_lt others
      omega

end

/-- A call begins with a letter. -/
theorem Call.exists_head {s rest : List Char} {p : Predicate} (h : Call s p rest) :
    ∃ c, s.head? = some c ∧ isAlphabetic c = true := by
  cases h with
  | equal name => exact ⟨'e', name.head?_eq, by decide⟩
  | conjunction name => exact ⟨'a', name.head?_eq, by decide⟩
  | disjunction name => exact ⟨'o', name.head?_eq, by decide⟩

theorem solid_call : Solid Call := by
  intro s p rest h
  obtain ⟨c, head, letter⟩ := h.exists_head
  exact ⟨c, head, isBlank_eq_false_of_isAlphabetic letter⟩

/-- No call begins with the closing sign. -/
theorem head?_ne_of_call (s : List Char) (p : Predicate) (rest : List Char) (h : Call s p rest) :
    s.head? ≠ some ')' := by
  obtain ⟨c, head, letter⟩ := h.exists_head
  rw [head]
  intro same
  obtain rfl := Option.some.inj same
  exact absurd letter (by decide)

theorem mem_connectiveNames {name : List Char} :
    name ∈ connectiveNames ↔ name = ['a', 'n', 'd'] ∨ name = ['o', 'r'] := by
  simp [connectiveNames]

theorem solid_connective {name : List Char} (known : name ∈ connectiveNames) :
    Solid (Letters name) := by
  rcases mem_connectiveNames.mp known with rfl | rfl
  · exact solid_letters (by decide)
  · exact solid_letters (by decide)

/-- A call that begins with the name of a connective goes on with its operands. -/
theorem Call.exists_operands {name s s₁ rest : List Char} {p : Predicate} (h : Call s p rest)
    (known : name ∈ connectiveNames) (named : Letters name s () s₁) :
    ∃ ps, Operands Call s₁ ps rest := by
  rcases mem_connectiveNames.mp known with rfl | rfl
  · cases h with
    | equal other =>
        exact absurd named.head?_eq (head?_ne_of_letters (by decide) _ _ _ other)
    | conjunction same operands => exact ⟨_, same.rest_eq named ▸ operands⟩
    | disjunction other _ =>
        exact absurd named.head?_eq (head?_ne_of_letters (by decide) _ _ _ other)
  · cases h with
    | equal other =>
        exact absurd named.head?_eq (head?_ne_of_letters (by decide) _ _ _ other)
    | conjunction other _ =>
        exact absurd named.head?_eq (head?_ne_of_letters (by decide) _ _ _ other)
    | disjunction same operands => exact ⟨_, same.rest_eq named ▸ operands⟩

/-- Before a sign that is no blank there are no blanks to skip. -/
theorem skipBlanks_of_sign {c : Char} {s rest : List Char} (solid : isBlank c = false)
    (h : Sign c s () rest) : skipBlanks s = s := by
  cases h with
  | intro => exact skipBlanks_of_head? rfl solid

end Grammar

namespace Parser

open Grammar

theorem sound_chars (cs : List Char) : Sound (chars cs) (Letters cs) := by
  intro s u rest h
  rw [chars_result_eq_some_iff.mp h]
  exact .intro

theorem chars_complete {cs s rest : List Char} (h : Letters cs s () rest) :
    (chars cs s).result = some ((), rest) := by
  cases h with
  | intro => exact chars_result_eq_some_iff.mpr rfl

/-- A call of one name is refused where the first letter is that of another one. -/
theorem chars_bind_result_of_head? {α : Type} {c : Char} {cs s : List Char} (f : Unit → Parser α)
    (h : s.head? ≠ some c) : ((chars (c :: cs) >>= f) s).result = none := by
  cases found : ((chars (c :: cs) >>= f) s).result with
  | none => rfl
  | some pair =>
      obtain ⟨⟨⟩, rest, name, -⟩ := bind_result_eq_some_iff.mp found
      rw [chars_result_eq_some_iff.mp name] at h
      exact absurd rfl h

theorem sound_equalCall : Sound equalCall Call := by
  intro s p rest h
  simp only [equalCall, label_result, bind_result_eq_some_iff, pure_result, Option.some.injEq,
    Prod.mk.injEq] at h
  obtain ⟨⟨⟩, s₁, name, _, s₂, opening, field, s₃, left, _, s₄, comma, value, s₅, right, _, s₆,
    closing, rfl, rfl⟩ := h
  apply Call.equal (sound_chars _ _ _ _ name) (padded_char_sound opening)
  · exact sound_doubleQuoted.padded _ _ _ left
  · exact char_sound comma
  · exact sound_doubleQuoted.padded _ _ _ right
  · exact char_sound closing

/-- An argument in front of a sign is read up to that sign. -/
theorem padded_doubleQuoted_complete {c : Char} {s s₁ rest : List Char} {value : String}
    (h : Padded Argument s value s₁) (solid : isBlank c = false) (next : Sign c s₁ () rest) :
    (padded doubleQuoted (skipBlanks s)).result = some (value, s₁) := by
  have found := padded_complete solid_argument h fun _ _ _ inside _ =>
    doubleQuoted_reads.mpr inside
  rwa [padded_skipBlanks, ← skipBlanks_of_sign solid next]

theorem equalCall_complete {s s₁ s₂ s₃ s₄ s₅ rest : List Char} {field value : String}
    (name : Letters ['e', 'q', 'u', 'a', 'l'] s () s₁) (opening : Padded (Sign '(') s₁ () s₂)
    (left : Padded Argument s₂ field s₃) (comma : Sign ',' s₃ () s₄)
    (right : Padded Argument s₄ value s₅) (closing : Sign ')' s₅ () rest) :
    (equalCall s).result = some (.equal field value, rest) := by
  have name := chars_complete name
  have opening := padded_char_complete (by decide) opening
  have left := padded_doubleQuoted_complete left (by decide) comma
  have comma := char_complete comma
  have right := padded_doubleQuoted_complete right (by decide) closing
  have closing := char_complete closing
  rw [padded_skipBlanks] at right
  simp only [equalCall, label_result, bind_result_eq_some_iff]
  exact ⟨(), _, name, _, _, opening, _, _, left, _, _, comma, _, _, right, _, _, closing, rfl⟩

/-- The parser finds the calls of all texts below a size. -/
def FindsCalls (operand : Parser Predicate) (size : Nat) : Prop :=
  ∀ s p rest, s.length < size → Call s p rest → (operand s).result = some (p, rest)

section Operands

variable {operand : Parser Predicate} {n : Nat}

/-- One operand behind its comma, as the repetition takes it. -/
theorem sound_furtherCall (sound : Sound operand Call) :
    Sound (char ',' >>= fun _ => padded operand) (Behind (Sign ',') (Padded Call)) := by
  intro s p rest h
  obtain ⟨_, s₁, comma, inside⟩ := bind_result_eq_some_iff.mp h
  exact ⟨s₁, char_sound comma, sound.padded _ _ _ inside⟩

theorem shrinks_furtherCall : Shrinks (Behind (Sign ',') (Padded Call)) :=
  (shrinks_sign ',').behind fun _ _ _ => padded_call_length_lt

theorem sound_operands (sound : Sound operand Call) :
    Sound (operands operand) (Operands Call) := by
  intro s ps rest h
  simp only [operands, bind_result_eq_some_iff, pure_result, Option.some.injEq,
    Prod.mk.injEq] at h
  obtain ⟨_, s₁, opening, first, s₂, inside, others, s₃, chain, _, s₄, closing, rfl, rfl⟩ := h
  apply Operands.intro (padded_char_sound opening) (sound.padded _ _ _ inside)
  · exact (sound_furtherCall sound).many1_chain shrinks_furtherCall _ _ _ chain
  · exact char_sound closing

theorem padded_operand_complete (complete : FindsCalls operand n) {s rest : List Char}
    {p : Predicate} (h : Padded Call s p rest) (size : s.length < n) :
    (padded operand s).result = some (p, skipBlanks rest) := by
  apply padded_complete solid_call h
  intro s₁ s₂ before inside after
  exact complete _ _ _ (Nat.lt_of_le_of_lt before.length_le size) inside

/-- Further operands are found up to a place where no other one stands behind a comma. -/
theorem furtherCalls_complete (sound : Sound operand Call) (complete : FindsCalls operand n)
    {s rest : List Char} {ps : List Predicate}
    (chain : Chain (Sign ',') (Padded Call) s ps rest) (size : s.length < n)
    (stop : ((char ',' >>= fun _ => padded operand) (skipBlanks rest)).result = none) :
    (many1 (char ',' >>= fun _ => padded operand) (skipBlanks s)).result =
      some (ps, skipBlanks rest) := by
  apply many1_chain_complete (fun _ => True) s.length (sound_furtherCall sound)
    shrinks_furtherCall (fun _ _ _ => trivial) ?_ chain (Nat.le_refl _) trivial stop
  intro t p tail bound reading _
  obtain ⟨t₁, comma, inside⟩ := reading
  have shorter : t₁.length < n := by
    have := shrinks_sign ',' _ _ _ comma
    omega
  rw [skipBlanks_of_sign (by decide) comma]
  have inside := padded_operand_complete complete inside shorter
  apply bind_result_eq_some_iff.mpr
  exact ⟨_, _, char_complete comma, inside⟩

/-- No operand stands behind a sign other than a comma. -/
theorem furtherCall_result_of_sign {c : Char} {s rest : List Char} (solid : isBlank c = false)
    (differ : c ≠ ',') (h : Sign c s () rest) :
    ((char ',' >>= fun _ => padded operand) (skipBlanks s)).result = none := by
  rw [skipBlanks_of_sign solid h]
  cases found : ((char ',' >>= fun _ => padded operand) s).result with
  | none => rfl
  | some pair =>
      obtain ⟨_, s₁, comma, -⟩ := bind_result_eq_some_iff.mp found
      obtain ⟨rfl, -⟩ := char_result_eq_some_iff.mp comma
      exact absurd rfl (head?_ne_of_letters differ _ _ _ h)

theorem operands_complete (sound : Sound operand Call) (complete : FindsCalls operand n)
    {s rest : List Char} {ps : List Predicate} (h : Operands Call s ps rest)
    (size : s.length ≤ n) : (operands operand s).result = some (ps, rest) := by
  cases h with
  | @intro _ s₁ s₂ s₃ _ p ps opening first others closing =>
      have short₁ : s₁.length < n := by
        have := (shrinks_sign '(').padded _ _ _ opening
        omega
      have short₂ : s₂.length < n := by
        have := padded_call_length_lt first
        omega
      have opening := padded_char_complete (by decide) opening
      have first := padded_operand_complete complete first short₁
      have others := furtherCalls_complete sound complete others short₂
        (furtherCall_result_of_sign (by decide) (by decide) closing)
      rw [skipBlanks_of_sign (by decide) closing] at others
      have closing := char_complete closing
      rw [← padded_skipBlanks] at first
      simp only [operands, bind_result_eq_some_iff]
      exact ⟨_, _, opening, _, _, first, _, _, others, _, _, closing, rfl⟩

end Operands

/-- A name in front of an operand list: the form that both connectives have. -/
def connective (name : List Char) (join : List Predicate → Predicate)
    (operand : Parser Predicate) : Parser Predicate := do
  chars name
  let children ← operands operand
  return join children

section Connective

variable {operand : Parser Predicate} {name : List Char} {join : List Predicate → Predicate}

theorem connective_sound (sound : Sound operand Call) {s rest : List Char} {p : Predicate}
    (h : (connective name join operand s).result = some (p, rest)) :
    ∃ s₁ ps, Letters name s () s₁ ∧ Operands Call s₁ ps rest ∧ p = join ps := by
  simp only [connective, bind_result_eq_some_iff, pure_result, Option.some.injEq,
    Prod.mk.injEq] at h
  obtain ⟨⟨⟩, s₁, named, ps, s₂, list, rfl, rfl⟩ := h
  exact ⟨s₁, ps, sound_chars _ _ _ _ named, sound_operands sound _ _ _ list, rfl⟩

theorem connective_complete (nonempty : name ≠ []) {s s₁ rest : List Char} {ps : List Predicate}
    (sound : Sound operand Call) (complete : FindsCalls operand s.length)
    (named : Letters name s () s₁) (list : Operands Call s₁ ps rest) :
    (connective name join operand s).result = some (join ps, rest) := by
  have short : s₁.length ≤ s.length := Nat.le_of_lt (shrinks_letters nonempty _ _ _ named)
  have found := operands_complete sound complete list short
  simp only [connective, bind_result_eq_some_iff]
  exact ⟨(), s₁, chars_complete named, ps, rest, found, rfl⟩

end Connective

/-- A call is an equality test or a connective of shorter calls. -/
theorem call_result (s : List Char) :
    (call s).result =
      (equalCall s).result.or
        ((connective ['a', 'n', 'd'] .and (within s call) s).result.or
          (connective ['o', 'r'] .or (within s call) s).result) := by
  have unfolded : call s = (equalCall <|> andCall (within s call) <|> orCall (within s call)) s :=
    recursive_eq _ s
  rw [unfolded, orElse_result, orElse_result, andCall, orCall, label_result, label_result]
  rfl

/-- Every call that is found is a reading, by induction on the size of the text. -/
theorem sound_call : Sound call Call := by
  intro s p rest h
  induction size : s.length using Nat.strongRecOn generalizing s p rest with
  | ind n ih =>
      have inner : Sound (within s call) Call := by
        intro t q tail found
        obtain ⟨shorter, found⟩ := within_result_eq_some_iff.mp found
        exact ih t.length (size ▸ shorter) _ _ _ found rfl
      rw [call_result, Option.or_eq_some_iff, Option.or_eq_some_iff] at h
      rcases h with h | ⟨-, h | ⟨-, h⟩⟩
      · exact sound_equalCall _ _ _ h
      · obtain ⟨s₁, ps, name, list, rfl⟩ := connective_sound inner h
        exact .conjunction name list
      · obtain ⟨s₁, ps, name, list, rfl⟩ := connective_sound inner h
        exact .disjunction name list

/-- Every reading of a call is found, by induction on the size of the text. -/
theorem call_complete {s rest : List Char} {p : Predicate} (h : Call s p rest) :
    (call s).result = some (p, rest) := by
  induction size : s.length using Nat.strongRecOn generalizing s p rest with
  | ind n ih =>
      have sound : Sound (within s call) Call := sound_call.within s
      have complete : FindsCalls (within s call) s.length := by
        intro t q tail shorter inside
        rw [within_result_of_lt shorter]
        exact ih t.length (size ▸ shorter) inside rfl
      rw [call_result]
      cases h with
      | equal name opening left comma right closing =>
          rw [equalCall_complete name opening left comma right closing]
          rfl
      | conjunction name list =>
          have noEqual : (equalCall s).result = none :=
            chars_bind_result_of_head? _ (head?_ne_of_letters (by decide) _ _ _ name)
          rw [noEqual, connective_complete (by decide) sound complete name list]
          rfl
      | disjunction name list =>
          have noEqual : (equalCall s).result = none :=
            chars_bind_result_of_head? _ (head?_ne_of_letters (by decide) _ _ _ name)
          have noConjunction :
              (connective ['a', 'n', 'd'] .and (within s call) s).result = none :=
            chars_bind_result_of_head? _ (head?_ne_of_letters (by decide) _ _ _ name)
          rw [noEqual, noConjunction, connective_complete (by decide) sound complete name list]
          rfl

/-- The parser finds the calls of all texts. -/
theorem findsCalls_call (size : Nat) : FindsCalls call size := fun _ _ _ _ => call_complete

/-! ### Operand lists that are refused -/

/-- No operand stands behind a trailing comma. -/
theorem furtherCall_result_of_trailing {s s₁ rest : List Char} (comma : Sign ',' s () s₁)
    (closing : Padded (Sign ')') s₁ () rest) :
    ((char ',' >>= fun _ => padded call) (skipBlanks s)).result = none := by
  rw [skipBlanks_of_sign (by decide) comma]
  cases found : ((char ',' >>= fun _ => padded call) s).result with
  | none => rfl
  | some pair =>
      obtain ⟨_, t, start, inside⟩ := bind_result_eq_some_iff.mp found
      rw [char_complete comma] at start
      obtain ⟨-, rfl⟩ := Prod.mk.inj (Option.some.inj start)
      have reading := sound_call.padded _ _ _ inside
      cases closing with
      | intro before sign after =>
          obtain ⟨u, operand⟩ :=
            reading.exists_inside solid_call before sign.head?_eq (by decide)
          exact absurd sign.head?_eq (head?_ne_of_call _ _ _ operand)

theorem operands_result_of_malformed {s : List Char} (h : Malformed s) :
    (operands call s).result = none := by
  cases found : (operands call s).result with
  | none => rfl
  | some pair =>
      exfalso
      simp only [operands, bind_result_eq_some_iff] at found
      obtain ⟨_, t₁, opened, p, t₂, inside, ps, t₃, chain, _, t₄, closed, -⟩ := found
      have noFurther (u : List Char)
          (stop : ((char ',' >>= fun _ => padded call) u).result = none) : t₂ ≠ u := by
        rintro rfl
        rw [many1_result, stop] at chain
        cases chain
      cases h with
      | empty opening closing =>
          rw [padded_char_complete (by decide) opening] at opened
          obtain ⟨-, rfl⟩ := Prod.mk.inj (Option.some.inj opened)
          rw [padded_skipBlanks] at inside
          have reading := sound_call.padded _ _ _ inside
          apply reading.head?_ne (by decide) head?_ne_of_call
          cases closing
          rfl
      | single opening only closing =>
          rw [padded_char_complete (by decide) opening] at opened
          obtain ⟨-, rfl⟩ := Prod.mk.inj (Option.some.inj opened)
          rw [padded_skipBlanks,
            padded_complete solid_call only fun _ _ _ reading _ => call_complete reading] at inside
          obtain ⟨-, rfl⟩ := Prod.mk.inj (Option.some.inj inside)
          exact noFurther _ (furtherCall_result_of_sign (by decide) (by decide) closing) rfl
      | trailingComma opening first others comma closing =>
          have stop := furtherCall_result_of_trailing comma closing
          rw [padded_char_complete (by decide) opening] at opened
          obtain ⟨-, rfl⟩ := Prod.mk.inj (Option.some.inj opened)
          rw [padded_skipBlanks,
            padded_complete solid_call first fun _ _ _ reading _ => call_complete reading] at inside
          obtain ⟨-, rfl⟩ := Prod.mk.inj (Option.some.inj inside)
          rcases others with rfl | ⟨qs, others⟩
          · exact noFurther _ stop rfl
          · have whole := furtherCalls_complete sound_call (findsCalls_call _) others
              (Nat.lt_succ_self _) stop
            rw [whole] at chain
            obtain ⟨-, rfl⟩ := Prod.mk.inj (Option.some.inj chain)
            rw [skipBlanks_of_sign (by decide) comma] at closed
            obtain ⟨rfl, -⟩ := char_result_eq_some_iff.mp closed
            exact absurd rfl (head?_ne_of_letters (by decide) _ _ _ comma)

/-- No call begins with the name of a connective and a malformed operand list. -/
theorem not_call_of_malformed {name s s₁ rest : List Char} {p : Predicate}
    (known : name ∈ connectiveNames) (named : Letters name s () s₁) (list : Malformed s₁) :
    ¬ Call s p rest := by
  intro reading
  obtain ⟨ps, operands⟩ := reading.exists_operands known named
  have refused := operands_result_of_malformed list
  rw [operands_complete sound_call (findsCalls_call _) operands (Nat.le_refl _)] at refused
  cases refused

theorem wholeCall_result_eq_some_iff {s rest : List Char} {p : Predicate} :
    (wholeCall s).result = some (p, rest) ↔ Padded Call s p [] ∧ rest = [] := by
  simp only [wholeCall, bind_result_eq_some_iff, pure_result, Option.some.injEq, Prod.mk.injEq]
  constructor
  · rintro ⟨q, s₁, found, ⟨⟩, s₂, done, rfl, rfl⟩
    obtain ⟨rfl, rfl⟩ := endOfInput_result_eq_some_iff.mp done
    exact ⟨sound_call.padded _ _ _ found, rfl⟩
  · rintro ⟨reading, rfl⟩
    have found := padded_complete solid_call reading fun _ _ _ inside _ => call_complete inside
    exact ⟨p, _, found, (), [], endOfInput_result_eq_some_iff.mpr ⟨rfl, rfl⟩, rfl, rfl⟩

end Parser

open Grammar

namespace Predicate

/-- A text in call notation is read exactly where the whole of it is a call, blanks around it aside. -/
theorem parseCall_eq_ok_iff {text : String} {p : Predicate} :
    parseCall text = .ok p ↔ Padded Call text.toList p [] := by
  rw [parseCall, Parser.readAll_eq_ok_iff]
  simp only [Parser.wholeCall_result_eq_some_iff, exists_and_left, exists_eq, and_true]

end Predicate

/-- Call notation is read exactly as its grammar says. In particular no operand at any depth and no
whole text is read that names a connective and goes on with no operand, with a single one or with a
comma behind the last one. -/
theorem callNotation_reads_grammar :
    (∀ (text : String) (p : Predicate),
      Predicate.parseCall text = .ok p ↔ Padded Call text.toList p []) ∧
    (∀ s s₁ : List Char, ∀ name ∈ connectiveNames, Letters name s () s₁ → Malformed s₁ →
      ∀ p rest, ¬ Call s p rest) ∧
    (∀ (text : String) (s s₁ : List Char), ∀ name ∈ connectiveNames, Blanks text.toList s →
      Letters name s () s₁ → Malformed s₁ → ∀ p, Predicate.parseCall text ≠ .ok p) := by
  refine ⟨fun text p => Predicate.parseCall_eq_ok_iff, ?_, ?_⟩
  · intro s s₁ name known named list p rest
    exact Parser.not_call_of_malformed known named list
  · intro text s s₁ name known blanks named list p read
    have whole := Predicate.parseCall_eq_ok_iff.mp read
    obtain ⟨c, head, notBlank⟩ := solid_connective known _ _ _ named
    obtain ⟨rest, call⟩ := whole.exists_inside solid_call blanks head notBlank
    exact Parser.not_call_of_malformed known named list call

end RecordQuery
