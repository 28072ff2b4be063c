import RecordQuery.Predicate.Json

/-!
# Reading and writing predicates as JSON

What is written is read back. The reader takes more than the writer gives, because a test may have further
members, and it refuses a value as a whole if one of its nodes is malformed, however deep it lies. So
reading and writing again brings a value into its one written form.
-/

namespace RecordQuery

namespace Predicate

mutual

/-- Whether a value of JSON stands for a predicate. -/
inductive Reads : Json → Predicate → Prop
  | equal {members : List (String × Json)} {field value : String}
      (hasField : members.lookup "field" = some (.string field))
      (hasValue : members.lookup "value" = some (.string value)) :
      Reads (.object [("equal", .object members)]) (.equal field value)
  | and {items : List Json} {children : List Predicate} (operands : ReadsAll items children) :
      Reads (.object [("and", .array items)]) (.and children)
  | or {items : List Json} {children : List Predicate} (operands : ReadsAll items children) :
      Reads (.object [("or", .array items)]) (.or children)

/-- Whether the items of an operand list stand for predicates, one by one. -/
inductive ReadsAll : List Json → List Predicate → Prop
  | nil : ReadsAll [] []
  | cons {item : Json} {child : Predicate} {items : List Json} {children : List Predicate}
      (first : Reads item child) (others : ReadsAll items children) :
      ReadsAll (item :: items) (child :: children)

end

/-- The nodes of a value, at any depth: the value itself and the nodes of its operands. -/
inductive HasNode : Json → Json → Prop
  | self (value : Json) : HasNode value value
  | operand {key : String} {items : List Json} {item node : Json}
      (connective : key = "and" ∨ key = "or") (mem : item ∈ items) (inside : HasNode item node) :
      HasNode (.object [(key, .array items)]) node

/-- Whether a value is no node of a predicate, whatever its operands are. -/
inductive Malformed : Json → Prop
  | noObject {value : Json} (other : ∀ members, value ≠ .object members) : Malformed value
  | noKey : Malformed (.object [])
  | severalKeys (first second : String × Json) (rest : List (String × Json)) :
      Malformed (.object (first :: second :: rest))
  | unknownKey {key : String} (unknown : key ∉ ["equal", "and", "or"]) (content : Json) :
      Malformed (.object [(key, content)])
  | noTest {content : Json} (other : ∀ members, content ≠ .object members) :
      Malformed (.object [("equal", content)])
  | noField {members : List (String × Json)}
      (missing : ∀ field, members.lookup "field" ≠ some (.string field)) :
      Malformed (.object [("equal", .object members)])
  | noValue {members : List (String × Json)}
      (missing : ∀ value, members.lookup "value" ≠ some (.string value)) :
      Malformed (.object [("equal", .object members)])
  | noOperands {key : String} {content : Json} (connective : key = "and" ∨ key = "or")
      (other : ∀ items, content ≠ .array items) : Malformed (.object [(key, content)])

/-! ### The reader, node by node -/

theorem ofJson?_and (items : List Json) :
    ofJson? (.object [("and", .array items)]) = (ofJsonAll? items).map and := by
  rw [ofJson?, nodeOfJson?, if_pos rfl]

theorem ofJson?_or (items : List Json) :
    ofJson? (.object [("or", .array items)]) = (ofJsonAll? items).map or := by
  rw [ofJson?, nodeOfJson?, if_neg (by decide), if_pos rfl]

theorem ofJson?_test (members : List (String × Json)) :
    ofJson? (.object [("equal", .object members)]) = equalOfJson? (.object members) := by
  rw [ofJson?, nodeOfJson?, if_pos rfl]
  exact fun _ => Json.noConfusion

theorem ofJson?_equal {members : List (String × Json)} {field value : String}
    (hasField : members.lookup "field" = some (.string field))
    (hasValue : members.lookup "value" = some (.string value)) :
    ofJson? (.object [("equal", .object members)]) = some (.equal field value) := by
  rw [ofJson?_test, equalOfJson?, hasField, hasValue]

theorem ofJsonAll?_cons_eq_some_iff {item : Json} {items : List Json} {all : List Predicate} :
    ofJsonAll? (item :: items) = some all ↔
      ∃ child children, ofJson? item = some child ∧ ofJsonAll? items = some children ∧
        all = child :: children := by
  rw [ofJsonAll?]
  cases ofJson? item with
  | none => simp
  | some child => cases ofJsonAll? items <;> simp [eq_comm]

/-- Operands are unreadable if one of them is. -/
theorem ofJsonAll?_eq_none_of_mem {item : Json} {items : List Json} (mem : item ∈ items)
    (unread : ofJson? item = none) : ofJsonAll? items = none := by
  induction items with
  | nil => exact absurd mem List.not_mem_nil
  | cons first rest ih =>
      rw [Option.eq_none_iff_forall_ne_some]
      intro all read
      obtain ⟨child, children, readFirst, readRest, rfl⟩ := ofJsonAll?_cons_eq_some_iff.mp read
      rcases List.mem_cons.mp mem with rfl | later
      · rw [unread] at readFirst
        cases readFirst
      · rw [ih later] at readRest
        cases readRest

/-- Malformed values are not read. -/
theorem Malformed.ofJson?_eq_none {value : Json} (h : Malformed value) : ofJson? value = none := by
  cases h with
  | noObject other =>
      cases value with
      | object members => exact absurd rfl (other members)
      | _ => rfl
  | noKey => rfl
  | severalKeys first second rest => rfl
  | unknownKey unknown content =>
      simp only [List.mem_cons, List.not_mem_nil, or_false, not_or] at unknown
      cases content <;> simp [ofJson?, nodeOfJson?, unknown]
  | @noTest content other =>
      cases content with
      | object members => exact absurd rfl (other members)
      | _ => rfl
  | @noField members missing =>
      rw [ofJson?_test, equalOfJson?]
      split
      · rename_i field value hasField hasValue
        exact absurd hasField (missing field)
      · rfl
  | @noValue members missing =>
      rw [ofJson?_test, equalOfJson?]
      split
      · rename_i field value hasField hasValue
        exact absurd hasValue (missing value)
      · rfl
  | @noOperands key content connective other =>
      have noTest : key ≠ "equal" := by
        rcases connective with rfl | rfl <;> decide
      cases content with
      | array items => exact absurd rfl (other items)
      | _ => simp [ofJson?, nodeOfJson?, noTest]

/-- One unreadable node makes the whole value unreadable. -/
theorem HasNode.ofJson?_eq_none {value node : Json} (h : HasNode value node)
    (unread : ofJson? node = none) : ofJson? value = none := by
  induction h with
  | self value => exact unread
  | @operand key items item node connective mem inside ih =>
      have none := ofJsonAll?_eq_none_of_mem mem (ih unread)
      rcases connective with rfl | rfl
      · rw [ofJson?_and, none]
        rfl
      · rw [ofJson?_or, none]
        rfl

mutual

theorem Reads.ofJson?_eq_some : ∀ {value : Json} {p : Predicate}, Reads value p →
    ofJson? value = some p
  | _, _, .equal hasField hasValue => ofJson?_equal hasField hasValue
  | _, _, .and operands => by rw [ofJson?_and, operands.ofJsonAll?_eq_some, Option.map_some]
  | _, _, .or operands => by rw [ofJson?_or, operands.ofJsonAll?_eq_some, Option.map_some]

theorem ReadsAll.ofJsonAll?_eq_some : ∀ {items : List Json} {children : List Predicate},
    ReadsAll items children → ofJsonAll? items = some children
  | _, _, .nil => by rw [ofJsonAll?]
  | _, _, .cons first others => ofJsonAll?_cons_eq_some_iff.mpr
      ⟨_, _, first.ofJson?_eq_some, others.ofJsonAll?_eq_some, rfl⟩

end

/-! ### Every value -/

/-- Whether a value stands for a predicate or has a malformed node. -/
def ReadOrMalformed (value : Json) : Prop :=
  (∃ p, Reads value p) ∨ ∃ node, HasNode value node ∧ Malformed node

theorem Malformed.readOrMalformed {value : Json} (h : Malformed value) : ReadOrMalformed value :=
  .inr ⟨value, .self value, h⟩

theorem key_cases (key : String) :
    key = "equal" ∨ (key = "and" ∨ key = "or") ∨ key ∉ ["equal", "and", "or"] := by
  by_cases test : key = "equal"
  · exact .inl test
  · by_cases connective : key = "and" ∨ key = "or"
    · exact .inr (.inl connective)
    · exact .inr (.inr (by simp [test, not_or.mp connective]))

/-- What is neither a list nor an object is the content of no node. -/
theorem readOrMalformed_scalar (key : String) {content : Json}
    (noItems : ∀ items, content ≠ .array items) (noMembers : ∀ members, content ≠ .object members) :
    ReadOrMalformed (.object [(key, content)]) := by
  rcases key_cases key with rfl | connective | unknown
  · exact (Malformed.noTest noMembers).readOrMalformed
  · exact (Malformed.noOperands connective noItems).readOrMalformed
  · exact (Malformed.unknownKey unknown content).readOrMalformed

theorem readOrMalformed_test (key : String) (members : List (String × Json)) :
    ReadOrMalformed (.object [(key, .object members)]) := by
  rcases key_cases key with rfl | connective | unknown
  · by_cases hasField : ∃ field, members.lookup "field" = some (.string field)
    · by_cases hasValue : ∃ value, members.lookup "value" = some (.string value)
      · obtain ⟨field, hasField⟩ := hasField
        obtain ⟨value, hasValue⟩ := hasValue
        exact .inl ⟨_, .equal hasField hasValue⟩
      · exact (Malformed.noValue (not_exists.mp hasValue)).readOrMalformed
    · exact (Malformed.noField (not_exists.mp hasField)).readOrMalformed
  · exact (Malformed.noOperands connective fun _ => Json.noConfusion).readOrMalformed
  · exact (Malformed.unknownKey unknown _).readOrMalformed

theorem readOrMalformed_operands (key : String) {items : List Json}
    (all : (∃ children, ReadsAll items children) ∨
      ∃ item ∈ items, ∃ node, HasNode item node ∧ Malformed node) :
    ReadOrMalformed (.object [(key, .array items)]) := by
  rcases key_cases key with rfl | connective | unknown
  · exact (Malformed.noTest fun _ => Json.noConfusion).readOrMalformed
  · rcases all with ⟨children, operands⟩ | ⟨item, mem, node, inside, malformed⟩
    · rcases connective with rfl | rfl
      · exact .inl ⟨_, .and operands⟩
      · exact .inl ⟨_, .or operands⟩
    · exact .inr ⟨node, .operand connective mem inside, malformed⟩
  · exact (Malformed.unknownKey unknown _).readOrMalformed

mutual

theorem readOrMalformed : ∀ value : Json, ReadOrMalformed value
  | .object [] => Malformed.noKey.readOrMalformed
  | .object (first :: second :: rest) => (Malformed.severalKeys first second rest).readOrMalformed
  | .object [(key, .object members)] => readOrMalformed_test key members
  | .object [(key, .array items)] => readOrMalformed_operands key (readOrMalformed_items items)
  | .object [(key, .null)] | .object [(key, .boolean _)] | .object [(key, .number _)]
  | .object [(key, .string _)] =>
      readOrMalformed_scalar key (fun _ => Json.noConfusion) fun _ => Json.noConfusion
  | .null | .boolean _ | .number _ | .string _ | .array _ =>
      (Malformed.noObject fun _ => Json.noConfusion).readOrMalformed

theorem readOrMalformed_items : ∀ items : List Json, (∃ children, ReadsAll items children) ∨
    ∃ item ∈ items, ∃ node, HasNode item node ∧ Malformed node
  | [] => .inl ⟨[], .nil⟩
  | item :: rest => by
      rcases readOrMalformed item with ⟨child, first⟩ | unread
      · rcases readOrMalformed_items rest with ⟨children, others⟩ | ⟨later, mem, unread⟩
        · exact .inl ⟨child :: children, .cons first others⟩
        · exact .inr ⟨later, List.mem_cons_of_mem item mem, unread⟩
      · exact .inr ⟨item, List.mem_cons_self .., unread⟩

end

/-- A value is read as the predicate that it stands for. -/
theorem ofJson?_eq_some_iff {value : Json} {p : Predicate} :
    ofJson? value = some p ↔ Reads value p := by
  refine ⟨fun read => ?_, Reads.ofJson?_eq_some⟩
  rcases readOrMalformed value with ⟨q, reads⟩ | ⟨node, inside, malformed⟩
  · rw [reads.ofJson?_eq_some] at read
    exact Option.some.inj read ▸ reads
  · rw [inside.ofJson?_eq_none malformed.ofJson?_eq_none] at read
    cases read

/-- A value is refused exactly if it has a malformed node. -/
theorem ofJson?_eq_none_iff {value : Json} :
    ofJson? value = none ↔ ∃ node, HasNode value node ∧ Malformed node := by
  constructor
  · intro unread
    rcases readOrMalformed value with ⟨p, reads⟩ | malformed
    · rw [reads.ofJson?_eq_some] at unread
      cases unread
    · exact malformed
  · rintro ⟨node, inside, malformed⟩
    exact inside.ofJson?_eq_none malformed.ofJson?_eq_none

/-! ### Written values -/

mutual

/-- What is written for a predicate stands for it. -/
theorem reads_toJson : ∀ p : Predicate, Reads p.toJson p
  | equal field value => by
      rw [toJson]
      exact .equal rfl rfl
  | and children => by
      rw [toJson]
      exact .and (readsAll_toJsonAll children)
  | or children => by
      rw [toJson]
      exact .or (readsAll_toJsonAll children)

theorem readsAll_toJsonAll : ∀ children : List Predicate, ReadsAll (toJsonAll children) children
  | [] => by
      rw [toJsonAll]
      exact .nil
  | child :: rest => by
      rw [toJsonAll]
      exact .cons (reads_toJson child) (readsAll_toJsonAll rest)

end

/-- The written form of what a value is read as. -/
def normalize? (value : Json) : Option Json := (ofJson? value).map toJson

theorem Reads.normalize?_eq_some {value : Json} {p : Predicate} (h : Reads value p) :
    normalize? value = some p.toJson := by
  rw [normalize?, h.ofJson?_eq_some, Option.map_some]

/-- Reading and writing a second time changes nothing. -/
theorem normalize?_bind (value : Json) :
    (normalize? value).bind normalize? = normalize? value := by
  cases read : ofJson? value with
  | none =>
      have refused : normalize? value = none := by rw [normalize?, read, Option.map_none]
      rw [refused, Option.bind_none]
  | some p =>
      rw [(ofJson?_eq_some_iff.mp read).normalize?_eq_some, Option.bind_some,
        (reads_toJson p).normalize?_eq_some]

/-- A predicate is read back from what is written for it. A value is read as the predicate that it stands
for, and reading and writing brings it into a form that reading and writing leaves. A value is refused
exactly if some node of it is malformed, at whatever depth, and so is a test that lists its parts. -/
theorem json_normal_form (value : Json) (p : Predicate) :
    ofJson? p.toJson = some p ∧
    (ofJson? value = some p ↔ Reads value p) ∧
    (Reads value p → normalize? value = some p.toJson ∧ normalize? p.toJson = some p.toJson) ∧
    (normalize? value).bind normalize? = normalize? value ∧
    (ofJson? value = none ↔ ∃ node, HasNode value node ∧ Malformed node) ∧
    ∀ items, ofJson? (.object [("equal", .array items)]) = none := by
  refine ⟨(reads_toJson p).ofJson?_eq_some, ofJson?_eq_some_iff, fun reads => ?_,
    normalize?_bind value, ofJson?_eq_none_iff, fun items => ?_⟩
  · exact ⟨reads.normalize?_eq_some, (reads_toJson p).normalize?_eq_some⟩
  · exact (Malformed.noTest fun _ => Json.noConfusion).ofJson?_eq_none

/-- A conjunction of one test, which has a further member. -/
def annotated : Json :=
  .object [("and", .array [.object [("equal", .object
    [("field", .string "f"), ("note", .null), ("value", .string "v")])]])]

/-- The further member is skipped, and the same value is refused under another key. -/
theorem json_normal_form_of_annotated :
    ofJson? annotated = some (.and [.equal "f" "v"]) ∧
    normalize? annotated = some (toJson (.and [.equal "f" "v"])) ∧
    ofJson? (.object [("or", .array [annotated, .object [("not", annotated)]])]) = none := by
  obtain ⟨-, read, form, -⟩ := json_normal_form annotated (.and [.equal "f" "v"])
  have reads : Reads annotated (.and [.equal "f" "v"]) := .and (.cons (.equal rfl rfl) .nil)
  obtain ⟨-, -, -, -, refused, -⟩ := json_normal_form
    (.object [("or", .array [annotated, .object [("not", annotated)]])]) (.and [])
  refine ⟨read.mpr reads, (form reads).1, refused.mpr ⟨.object [("not", annotated)], ?_, ?_⟩⟩
  · exact .operand (.inr rfl) (by simp) (.self _)
  · exact .unknownKey (by decide) annotated

/-- A test whose field and value are listed is not read. -/
theorem listed_test_refused :
    ofJson? (.object [("equal", .array [.string "f", .string "v"])]) = none := rfl

end Predicate

end RecordQuery
