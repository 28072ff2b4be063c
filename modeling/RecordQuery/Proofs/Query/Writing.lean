import RecordQuery.Query.Writer
import RecordQuery.Proofs.Query.Calls
import RecordQuery.Proofs.Query.Wrapping

/-!
# Written predicates

The text of a predicate in either dialect is a reading of that predicate, provided that every node joins
two children or more. No other trees are written, because no dialect reads another one.
-/

namespace RecordQuery

namespace Predicate

mutual

/-- Whether every node of the tree has two children or more. -/
def isBranching : Predicate → Bool
  | equal _ _ => true
  | and children => decide (2 ≤ children.length) && areBranching children
  | or children => decide (2 ≤ children.length) && areBranching children

/-- Whether every node of each tree has two children or more. -/
def areBranching : List Predicate → Bool
  | [] => true
  | child :: rest => isBranching child && areBranching rest

end

@[simp]
theorem areBranching_cons (child : Predicate) (rest : List Predicate) :
    areBranching (child :: rest) = (child.isBranching && areBranching rest) := by
  rw [areBranching]

/-- A node that joins a child and others has two children. -/
theorem isBranching_and_of_ne_nil {child : Predicate} {others : List Predicate}
    (some : others ≠ []) :
    (and (child :: others)).isBranching = (child.isBranching && areBranching others) := by
  have length := List.length_pos_iff.mpr some
  rw [isBranching, areBranching_cons, List.length_cons, decide_eq_true (by omega), Bool.true_and]

theorem isBranching_or_eq (children : List Predicate) :
    (or children).isBranching = (and children).isBranching := by
  rw [isBranching, isBranching]

/-- A node of two children or more joins one child and others. -/
theorem exists_cons_of_isBranching {children : List Predicate}
    (branching : (and children).isBranching = true) :
    ∃ first second more, children = first :: second :: more ∧ areBranching children = true := by
  rw [isBranching, Bool.and_eq_true, decide_eq_true_eq] at branching
  obtain ⟨long, inside⟩ := branching
  match children, long, inside with
  | first :: second :: more, _, inside => exact ⟨first, second, more, rfl, inside⟩

theorem statementCharsAll_eq_map (ps : List Predicate) :
    statementCharsAll ps = ps.map statementChars := by
  induction ps with
  | nil => rfl
  | cons p rest ih => rw [statementCharsAll, ih, List.map_cons]

theorem callCharsAll_eq_map (ps : List Predicate) : callCharsAll ps = ps.map callChars := by
  induction ps with
  | nil => rfl
  | cons p rest ih => rw [callCharsAll, ih, List.map_cons]

end Predicate

namespace Grammar

open Predicate

variable {α : Type}

/-- Texts that are joined by a separator are a chain, if each of them is an item behind it. -/
theorem chain_intercalate {link : Reading Unit} {item : Reading α} {separator : List Char}
    {write : α → List Char} (first : α) (others : List α)
    (behind : ∀ a ∈ first :: others, ∀ rest,
      Behind link item (separator ++ (write a ++ rest)) a rest) (rest : List Char) :
    Chain link item (separator ++ (separator.intercalate ((first :: others).map write) ++ rest))
      (first :: others) rest := by
  induction others generalizing first with
  | nil =>
      rw [List.map_singleton, List.intercalate_singleton]
      obtain ⟨s, linked, last⟩ := behind first (List.mem_singleton_self first) rest
      exact .one linked last
  | cons second more ih =>
      rw [List.map_cons, List.map_cons, List.intercalate_cons_cons, List.append_assoc,
        List.append_assoc, ← List.map_cons]
      obtain ⟨s, linked, next⟩ := behind first (List.mem_cons_self ..)
        (separator ++ (separator.intercalate ((second :: more).map write) ++ rest))
      exact .more linked next (ih second fun a mem => behind a (List.mem_cons_of_mem _ mem))

/-- Two or more texts that are joined by a separator are an item and a chain. -/
theorem exists_chain_intercalate {link : Reading Unit} {item : Reading α} {separator : List Char}
    {write : α → List Char} {first second : α} {more : List α}
    (head : ∀ rest, item (write first ++ rest) first rest)
    (behind : ∀ a ∈ second :: more, ∀ rest,
      Behind link item (separator ++ (write a ++ rest)) a rest) (rest : List Char) :
    ∃ s, item (separator.intercalate ((first :: second :: more).map write) ++ rest) first s ∧
      Chain link item s (second :: more) rest := by
  refine ⟨_, ?_, chain_intercalate second more behind rest⟩
  rw [List.map_cons, List.map_cons, List.intercalate_cons_cons, List.append_assoc,
    List.append_assoc, ← List.map_cons]
  exact head _

/-! ### The statement dialect -/

theorem quoted_quoteLiteral (value : String) (rest : List Char) :
    Literal ((Statement.quoteLiteral value).toList ++ rest) value rest := by
  have written : (Statement.quoteLiteral value).toList ++ rest =
      '\x27' :: ((value.toList.flatMap fun c => if c = '\x27' then [c, c] else [c]) ++
        '\x27' :: rest) := by
    simp [Statement.quoteLiteral]
  have reading : Literal _ _ rest := .intro (doubling_flatMap '\x27' value.toList)
  rw [String.ofList_toList] at reading
  rwa [written]

/-- A written comparison is one, with single blanks around its sign. -/
theorem expression_equal (field value : String) (rest : List Char) :
    Expression ((equal field value).statementChars ++ rest) (.equal field value) rest := by
  have written : (equal field value).statementChars ++ rest =
      (Statement.quoteName field).toList ++
        ' ' :: '=' :: ' ' :: ((Statement.quoteLiteral value).toList ++ rest) := by
    simp [statementChars]
  rw [written]
  exact .comparison (.intro (.refl _) (.doubleQuoted (quoted_quoteName field _)) (blanks_space _))
    (.intro (.refl _) .intro (blanks_space _))
    (.intro (.refl _) (quoted_quoteLiteral value rest) (.refl rest))

/-- A keyword between single blanks. -/
def separator (k : Keyword) : List Char := ' ' :: (k.text.toList ++ [' '])

theorem padded_separator (k : Keyword) (rest : List Char) :
    Padded (Word k) (separator k ++ rest) () rest := by
  have written : separator k ++ rest = ' ' :: (k.text.toList ++ ' ' :: rest) := by
    simp [separator]
  rw [written]
  exact (word_text k rest).after_blanks (blanks_space _)

theorem sign_cons (c : Char) (rest : List Char) : Sign c (c :: rest) () rest := .intro

theorem padded_sign (c : Char) (rest : List Char) : Padded (Sign c) (c :: rest) () rest :=
  .intro (.refl _) (sign_cons c rest) (.refl rest)

/-- Written expressions that are joined by the keyword of a connective, in parentheses. -/
theorem expression_join (c : Connective) {first second : Predicate} {more : List Predicate}
    (readable : ∀ p ∈ first :: second :: more, ∀ rest,
      Expression (p.statementChars ++ rest) p rest) (rest : List Char) :
    Expression ('(' :: ((separator c.keyword).intercalate
      (statementCharsAll (first :: second :: more)) ++ ')' :: rest))
      (c.join (first :: second :: more)) rest := by
  rw [statementCharsAll_eq_map]
  have behind : ∀ p ∈ second :: more, ∀ tail,
      Behind (Padded (Word c.keyword)) Expression (separator c.keyword ++ (p.statementChars ++ tail))
        p tail := fun p mem tail =>
    ⟨_, padded_separator c.keyword _, readable p (List.mem_cons_of_mem _ mem) tail⟩
  obtain ⟨s, head, others⟩ := exists_chain_intercalate (readable first (List.mem_cons_self ..))
    behind (')' :: rest)
  exact .joined c (padded_sign '(' _) head (furtherOperands_iff_chain.mpr others)
    (padded_sign ')' rest)

mutual

/-- The text of a predicate is read as that predicate, whatever stands behind it. -/
theorem expression_statementChars : ∀ (p : Predicate), p.isBranching = true → ∀ rest,
    Expression (p.statementChars ++ rest) p rest
  | .equal field value, _, rest => expression_equal field value rest
  | .and children, branching, rest => by
      obtain ⟨first, second, more, rfl, inside⟩ := exists_cons_of_isBranching branching
      rw [statementChars, List.append_assoc]
      exact expression_join .and (expressions_statementChars _ inside) rest
  | .or children, branching, rest => by
      rw [isBranching_or_eq] at branching
      obtain ⟨first, second, more, rfl, inside⟩ := exists_cons_of_isBranching branching
      rw [statementChars, List.append_assoc]
      exact expression_join .or (expressions_statementChars _ inside) rest

theorem expressions_statementChars : ∀ (ps : List Predicate), areBranching ps = true →
    ∀ p ∈ ps, ∀ rest, Expression (p.statementChars ++ rest) p rest
  | [], _, _, mem => absurd mem List.not_mem_nil
  | child :: others, branching, p, mem => by
      rw [areBranching_cons, Bool.and_eq_true] at branching
      rcases List.mem_cons.mp mem with same | later
      · rw [same]
        exact expression_statementChars child branching.1
      · exact expressions_statementChars others branching.2 p later

end

/-! ### Call notation -/

/-- A character in an argument, with a backslash in front of it where it can be escaped. -/
theorem escaping_flatMap (value : List Char) :
    Escaping (value.flatMap fun c => if c = '\x22' ∨ c = '\\' then ['\\', c] else [c]) value := by
  induction value with
  | nil => exact .nil
  | cons c rest ih =>
      rw [List.flatMap_cons]
      by_cases can : c = '\x22' ∨ c = '\\'
      · rw [if_pos can]
        exact ih.escaped can
      · rw [if_neg can]
        obtain ⟨notQuote, notBackslash⟩ := not_or.mp can
        exact ih.plain notQuote fun backslash => absurd backslash notBackslash

theorem argument_quoteArgument (s : String) (rest : List Char) :
    Argument (quoteArgument s ++ rest) s rest := by
  have reading : Argument _ _ rest := .intro (escaping_flatMap s.toList)
  rw [String.ofList_toList] at reading
  rw [quoteArgument, List.cons_append, List.cons_append, List.append_assoc]
  exact reading

theorem padded_argument (s : String) (rest : List Char) :
    Padded Argument (quoteArgument s ++ rest) s rest :=
  .intro (.refl _) (argument_quoteArgument s rest) (.refl rest)

/-- The signs of a written equality test. -/
theorem equal_callChars_append (field value : String) (rest : List Char) :
    (equal field value).callChars ++ rest = ['e', 'q', 'u', 'a', 'l'] ++ '(' ::
      (quoteArgument field ++ ',' :: ' ' :: (quoteArgument value ++ ')' :: rest)) := by
  have name : "equal(".toList = ['e', 'q', 'u', 'a', 'l', '('] := by decide
  have comma : ", ".toList = [',', ' '] := by decide
  calc (equal field value).callChars ++ rest
      = "equal(".toList ++ quoteArgument field ++ ", ".toList ++ quoteArgument value ++ [')'] ++
          rest := rfl
    _ = _ := by
      rw [name, comma]
      simp only [List.append_assoc, List.cons_append, List.nil_append]

/-- The signs of a written connective, behind its name. -/
theorem connective_callChars_append {name : String} {letters : List Char}
    (opening : name.toList = letters ++ ['(']) (children : List Predicate) (rest : List Char) :
    name.toList ++ ", ".toList.intercalate (callCharsAll children) ++ [')'] ++ rest =
      letters ++ '(' :: ([',', ' '].intercalate (callCharsAll children) ++ ')' :: rest) := by
  have comma : ", ".toList = [',', ' '] := by decide
  rw [opening, comma]
  simp only [List.append_assoc, List.cons_append, List.nil_append]

theorem and_callChars_append (children : List Predicate) (rest : List Char) :
    (Predicate.and children).callChars ++ rest = ['a', 'n', 'd'] ++ '(' ::
      ([',', ' '].intercalate (callCharsAll children) ++ ')' :: rest) :=
  connective_callChars_append (by decide : "and(".toList = ['a', 'n', 'd'] ++ ['(']) children rest

theorem or_callChars_append (children : List Predicate) (rest : List Char) :
    (Predicate.or children).callChars ++ rest = ['o', 'r'] ++ '(' ::
      ([',', ' '].intercalate (callCharsAll children) ++ ')' :: rest) :=
  connective_callChars_append (by decide : "or(".toList = ['o', 'r'] ++ ['(']) children rest

/-- A written equality test is one, with a blank in front of its second argument. -/
theorem call_equal (field value : String) (rest : List Char) :
    Call ((equal field value).callChars ++ rest) (.equal field value) rest := by
  rw [equal_callChars_append]
  exact .equal .intro (padded_sign '(' _) (padded_argument field _) (sign_cons ',' _)
    ((padded_argument value _).after_blanks (blanks_space _)) (sign_cons ')' rest)

/-- Written calls that are joined by commas in parentheses are operands. -/
theorem operands_intercalate {first second : Predicate} {more : List Predicate}
    (readable : ∀ p ∈ first :: second :: more, ∀ rest, Call (p.callChars ++ rest) p rest)
    (rest : List Char) :
    Operands Call ('(' :: ([',', ' '].intercalate (callCharsAll (first :: second :: more)) ++
      ')' :: rest)) (first :: second :: more) rest := by
  have padded : ∀ p ∈ first :: second :: more, ∀ rest,
      Padded Call (p.callChars ++ rest) p rest :=
    fun p mem rest => .intro (.refl _) (readable p mem rest) (.refl rest)
  have behind : ∀ p ∈ second :: more, ∀ rest,
      Behind (Sign ',') (Padded Call) ([',', ' '] ++ (p.callChars ++ rest)) p rest := by
    intro p mem tail
    exact ⟨' ' :: (p.callChars ++ tail), sign_cons ',' _,
      (padded p (List.mem_cons_of_mem _ mem) tail).after_blanks (blanks_space _)⟩
  obtain ⟨s, head, others⟩ :=
    exists_chain_intercalate (padded first (List.mem_cons_self ..)) behind (')' :: rest)
  rw [callCharsAll_eq_map]
  exact .intro (padded_sign '(' _) head others (sign_cons ')' rest)

mutual

/-- The text of a predicate in call notation is read as that predicate. -/
theorem call_callChars : ∀ (p : Predicate), p.isBranching = true → ∀ rest,
    Call (p.callChars ++ rest) p rest
  | .equal field value, _, rest => call_equal field value rest
  | .and children, branching, rest => by
      obtain ⟨first, second, more, rfl, inside⟩ := exists_cons_of_isBranching branching
      rw [and_callChars_append]
      exact .conjunction .intro (operands_intercalate (calls_callChars _ inside) rest)
  | .or children, branching, rest => by
      rw [isBranching_or_eq] at branching
      obtain ⟨first, second, more, rfl, inside⟩ := exists_cons_of_isBranching branching
      rw [or_callChars_append]
      exact .disjunction .intro (operands_intercalate (calls_callChars _ inside) rest)

theorem calls_callChars : ∀ (ps : List Predicate), areBranching ps = true →
    ∀ p ∈ ps, ∀ rest, Call (p.callChars ++ rest) p rest
  | [], _, _, mem => absurd mem List.not_mem_nil
  | child :: others, branching, p, mem => by
      rw [areBranching_cons, Bool.and_eq_true] at branching
      rcases List.mem_cons.mp mem with same | later
      · rw [same]
        exact call_callChars child branching.1
      · exact calls_callChars others branching.2 p later

end

/-! ### The trees of readings -/

theorem isBranching_join (c : Connective) {child : Predicate} {others : List Predicate}
    (some : others ≠ []) :
    (c.join (child :: others)).isBranching = (child.isBranching && areBranching others) := by
  cases c with
  | and => exact isBranching_and_of_ne_nil some
  | or => exact (isBranching_or_eq _).trans (isBranching_and_of_ne_nil some)

theorem Chain.ne_nil {link : Reading Unit} {item : Reading α} {s rest : List Char} {as : List α}
    (h : Chain link item s as rest) : as ≠ [] := by
  cases h with
  | one first last => exact List.cons_ne_nil _ _
  | more first next others => exact List.cons_ne_nil _ _

mutual

/-- Every node of an expression joins two operands or more. -/
theorem Expression.isBranching {s rest : List Char} {p : Predicate} :
    Expression s p rest → p.isBranching = true
  | .comparison _ _ _ => by rw [Predicate.isBranching]
  | .grouped _ inside _ => inside.isBranching
  | .joined c _ first others _ => by
      rw [isBranching_join c others.chain.ne_nil, first.isBranching, others.areBranching,
        Bool.and_true]

theorem FurtherOperands.areBranching {c : Connective} {s rest : List Char} {ps : List Predicate} :
    FurtherOperands c s ps rest → areBranching ps = true
  | .one _ last => by
      rw [areBranching_cons, last.isBranching, Predicate.areBranching, Bool.and_true]
  | .more _ next others => by
      rw [areBranching_cons, next.isBranching, others.areBranching, Bool.and_true]

end

mutual

/-- Every node of a call joins two operands or more. -/
theorem Call.isBranching {s rest : List Char} {p : Predicate} :
    Call s p rest → p.isBranching = true
  | .equal _ _ _ _ _ _ => by rw [Predicate.isBranching]
  | .conjunction _ operands => isBranching_of_operands operands
  | .disjunction _ operands => by
      rw [isBranching_or_eq]
      exact isBranching_of_operands operands

theorem isBranching_of_operands {s rest : List Char} {ps : List Predicate} :
    Operands Call s ps rest → (Predicate.and ps).isBranching = true
  | .intro _ first others _ => by
      rw [isBranching_and_of_ne_nil others.ne_nil, isBranching_of_padded first,
        furtherCalls_areBranching others, Bool.and_true]

theorem isBranching_of_padded {s rest : List Char} {p : Predicate} :
    Padded Call s p rest → p.isBranching = true
  | .intro _ inside _ => inside.isBranching

theorem furtherCalls_areBranching {s rest : List Char} {ps : List Predicate} :
    Chain (Sign ',') (Padded Call) s ps rest → areBranching ps = true
  | .one _ last => by
      rw [areBranching_cons, isBranching_of_padded last, areBranching, Bool.and_true]
  | .more _ next others => by
      rw [areBranching_cons, isBranching_of_padded next, furtherCalls_areBranching others,
        Bool.and_true]

end

end Grammar

namespace Predicate

open Grammar

/-- What is written in the statement dialect is read back. -/
theorem parse_write {p : Predicate} (branching : p.isBranching = true) :
    parse p.write = .ok p := by
  have reading := expression_statementChars p branching []
  rw [List.append_nil] at reading
  rw [parse_eq_ok_iff, write, String.toList_ofList]
  exact reading

/-- What is written in call notation is read back. -/
theorem parseCall_writeCall {p : Predicate} (branching : p.isBranching = true) :
    parseCall p.writeCall = .ok p := by
  have reading := call_callChars p branching []
  rw [List.append_nil] at reading
  rw [parseCall_eq_ok_iff, writeCall, String.toList_ofList]
  exact .intro (.refl _) reading (.refl [])

theorem isBranching_of_parse {text : String} {p : Predicate} (parsed : parse text = .ok p) :
    p.isBranching = true :=
  (parse_eq_ok_iff.mp parsed).isBranching

theorem isBranching_of_parseCall {text : String} {p : Predicate}
    (parsed : parseCall text = .ok p) : p.isBranching = true :=
  isBranching_of_padded (parseCall_eq_ok_iff.mp parsed)

end Predicate

end RecordQuery
