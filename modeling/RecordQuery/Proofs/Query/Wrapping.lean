import RecordQuery.Proofs.Query.Expressions

/-!
# A bare predicate as a statement

The statement that a bare predicate stands for names the given collection, however that name has to be
written, and has the predicate as its condition.
-/

namespace RecordQuery

namespace Grammar

/-- A character between delimiters, a delimiter being written twice. -/
theorem doubling_flatMap (delimiter : Char) (value : List Char) :
    Doubling delimiter
      (value.flatMap fun c => if c = delimiter then [c, c] else [c]) value := by
  induction value with
  | nil => exact .nil
  | cons c rest ih =>
      rw [List.flatMap_cons]
      by_cases same : c = delimiter
      · subst same
        rw [if_pos rfl]
        exact ih.doubled
      · rw [if_neg same]
        exact ih.plain same

theorem quoted_quoteName (name : String) (rest : List Char) :
    Quoted '\x22' ((Statement.quoteName name).toList ++ rest) name rest := by
  have written : (Statement.quoteName name).toList ++ rest =
      '\x22' :: ((name.toList.flatMap fun c => if c = '\x22' then [c, c] else [c]) ++
        '\x22' :: rest) := by
    simp [Statement.quoteName]
  have reading : Quoted '\x22' _ _ rest := .intro (doubling_flatMap '\x22' name.toList)
  rw [String.ofList_toList] at reading
  rwa [written]

/-- A written name is read as that name. -/
theorem name_writeName (name : String) (rest : List Char) :
    Name ((Statement.writeName name).toList ++ ' ' :: rest) name (' ' :: rest) := by
  unfold Statement.writeName
  split
  · rename_i plain
    obtain ⟨nonempty, chars⟩ := Bool.and_eq_true_iff.mp plain
    have run : Run isNameChar (name.toList ++ ' ' :: rest) name.toList (' ' :: rest) := by
      constructor
      · intro empty
        rw [String.toList_eq_nil_iff.mp empty] at nonempty
        cases nonempty
      · intro c mem
        exact isNameChar_of_isBareNameChar (List.all_eq_true.mp chars c mem)
      · intro c head
        obtain rfl := Option.some.inj head
        decide
    have reading := Name.bare run
    rwa [String.ofList_toList] at reading
  · exact .doubleQuoted (quoted_quoteName name _)

theorem blanks_space (rest : List Char) : Blanks (' ' :: rest) rest :=
  ⟨[' '], List.forall_mem_singleton.mpr (by decide), rfl⟩

/-- A written keyword is the run of letters in front of the blank behind it. -/
theorem run_text (k : Keyword) (rest : List Char) :
    Run isAlphabetic (k.text.toList ++ ' ' :: rest) k.text.toList (' ' :: rest) := by
  constructor
  · cases k <;> decide
  · apply List.all_eq_true.mp
    cases k <;> decide
  · intro c head
    obtain rfl := Option.some.inj head
    decide

theorem word_spelled (k : Keyword) (rest : List Char) :
    Word k (k.text.toList ++ ' ' :: rest) () (' ' :: rest) := by
  have spelled : k.text.toList.map Char.toUpper = k.text.toList := by
    cases k <;> decide
  exact .intro (run_text k rest) spelled

/-- A written keyword takes in the blank behind it. -/
theorem word_text (k : Keyword) (rest : List Char) :
    Padded (Word k) (k.text.toList ++ ' ' :: rest) () rest :=
  .intro (.refl _) (word_spelled k rest) (blanks_space rest)

/-- The tokens of a statement, each with the blank behind it. -/
theorem toList_wrap (collection text : String) :
    (Statement.wrap collection text).toList =
      Keyword.selectWord.text.toList ++ ' ' :: ('*' :: ' ' :: (Keyword.fromWord.text.toList ++
        ' ' :: ((Statement.writeName collection).toList ++
          ' ' :: (Keyword.whereWord.text.toList ++ ' ' :: text.toList)))) := by
  have opening : "SELECT * FROM ".toList = Keyword.selectWord.text.toList ++
      ' ' :: '*' :: ' ' :: (Keyword.fromWord.text.toList ++ [' ']) := by decide
  have middle : " WHERE ".toList = ' ' :: (Keyword.whereWord.text.toList ++ [' ']) := by decide
  unfold Statement.wrap
  rw [String.toList_append, String.toList_append, String.toList_append, opening, middle]
  simp only [List.append_assoc, List.cons_append, List.nil_append]

/-- The sign that stands for all members of a record. -/
theorem padded_star (rest : List Char) : Padded (Sign '*') ('*' :: ' ' :: rest) () rest :=
  .intro (.refl _) Letters.intro (blanks_space rest)

theorem padded_writeName (collection : String) (rest : List Char) :
    Padded Name ((Statement.writeName collection).toList ++ ' ' :: rest) collection rest :=
  .intro (.refl _) (name_writeName collection rest) (blanks_space rest)

/-- An expression as the condition of a statement, behind the name of a collection. -/
theorem statementText_wrap (collection : String) {text : String} {p : Predicate}
    (expression : Expression text.toList p []) :
    StatementText (Statement.wrap collection text).toList ⟨collection, p⟩ := by
  rw [toList_wrap]
  exact .intro (word_text ..) (padded_star _) (word_text ..) (padded_writeName ..) (word_text ..)
    expression

end Grammar

end RecordQuery
