import RecordQuery.Proofs.Query.Viability
import RecordQuery.Proofs.Query.Calls

/-!
# Viable places of query texts

The parsers of all dialects leave their notes at viable places: what stands in front of a note can be
completed to a text that the dialect reads.
-/

namespace RecordQuery

namespace Grammar

theorem writable_literal : Writable (Padded Literal) := (writable_quoted '\x27').padded

theorem writable_comparison : Writable Expression := by
  obtain ⟨name, field, named⟩ := writable_name.padded
  obtain ⟨sign, _, signed⟩ := (writable_sign '=').padded
  obtain ⟨literal, value, compared⟩ := writable_literal
  refine ⟨name ++ (sign ++ literal), .equal field value, fun rest => ?_⟩
  rw [List.append_assoc, List.append_assoc]
  exact .comparison (named _) (signed _) (compared _)

end Grammar

namespace Parser

open Grammar

variable {texts : List Char → Prop}

theorem tracks_comparison : Tracks Expression comparison := by
  apply Tracks.label
  intro texts some
  have behindSign := writable_literal.exists_before some
  have behindName := (writable_sign '=').padded.exists_before behindSign
  apply ((tracks_padded_fieldName _ behindName).bind fun _ =>
    ((tracks_char '=').padded _ behindSign).bind fun _ =>
      (tracks_singleQuoted.padded texts some).bind fun _ => .pure _).mono ?_ fun _ _ => id
  intro s note viable
  apply viable.mono
  rintro t ⟨field, _, name, _, _, sign, value, rest, literal, wanted⟩
  exact ⟨_, rest, .comparison name sign literal, wanted⟩

section Group

variable {operand : Parser Predicate}

theorem tracks_furtherOperands (inside : Tracks Expression operand) (c : Connective) :
    Tracks (FurtherOperands c) (furtherOperands c.keyword operand) := by
  intro texts some
  apply (((tracks_keyword c.keyword).behind inside writable_comparison).many1_chain texts
    some).mono ?_ fun _ _ => id
  intro s note viable
  apply viable.mono
  rintro t ⟨ps, rest, chain, wanted⟩
  exact ⟨ps, rest, furtherOperands_iff_chain.mpr chain, wanted⟩

/-- What is wanted behind the first operand of a group: further operands behind one connective, or
nothing, and then what is wanted behind them. -/
def GroupTailBefore (texts : List Char → Prop) (s : List Char) : Prop :=
  texts s ∨ ∃ c, Before (FurtherOperands c) texts s

theorem viable_groupTail (inside : Tracks Expression operand) (some : ∃ t, texts t) :
    Carries (optional (groupTail operand)) (Viable (GroupTailBefore texts)) (Viable texts) := by
  have further (c : Connective) : Carries (furtherOperands c.keyword operand)
      (Viable (GroupTailBefore texts)) (Viable texts) :=
    (tracks_furtherOperands inside c texts some).mono
      (fun _ _ viable => viable.mono fun _ others => .inr ⟨c, others⟩) fun _ _ => id
  have tail : Carries (groupTail operand) (Viable (GroupTailBefore texts)) (Viable texts) :=
    ((further .and).bind fun _ => .pure _).orElse ((further .or).bind fun _ => .pure _)
  exact tail.optional fun _ _ viable => viable.mono fun _ => .inl

theorem tracks_group (inside : Tracks Expression operand) : Tracks Expression (group operand) := by
  apply Tracks.label
  intro texts some
  have behindTail := (writable_sign ')').padded.exists_before some
  have behindFirst : ∃ t, GroupTailBefore (Before (Padded (Sign ')')) texts) t := by
    obtain ⟨t, wanted⟩ := behindTail
    exact ⟨t, .inl wanted⟩
  have behindOpening := writable_comparison.exists_before behindFirst
  apply (((tracks_char '(').padded _ behindOpening).bind fun _ =>
    (inside _ behindFirst).bind fun _ => (viable_groupTail inside behindTail).bind fun _ =>
      ((tracks_char ')').padded texts some).bind fun _ => .pure _).mono ?_ fun _ _ => id
  intro s note viable
  apply viable.mono
  rintro t ⟨_, u, opening, p, v, first, tail⟩
  rcases tail with ⟨_, rest, closing, wanted⟩ | ⟨c, ps, w, others, _, rest, closing, wanted⟩
  · exact ⟨_, rest, .grouped opening first closing, wanted⟩
  · exact ⟨_, rest, .joined c opening first others closing, wanted⟩

end Group

theorem tracks_predicate : Tracks Expression predicate := by
  have carries : ∀ follow : { texts : List Char → Prop // ∃ t, texts t },
      Carries predicate (Viable (Before Expression follow.1)) (Viable follow.1) := by
    apply Carries.recursive
    intro operand inside follow
    have tracks : Tracks Expression operand := fun texts some => inside ⟨texts, some⟩
    exact (tracks_group tracks follow.1 follow.2).orElse (tracks_comparison follow.1 follow.2)
  exact fun texts some => carries ⟨texts, some⟩

/-- At the end of the text nothing more is wanted. -/
theorem viable_endOfInput : Carries endOfInput (Viable (· = [])) (Viable (· = [])) := by
  apply stopsAtStart_endOfInput.carries
  · exact fun s note _ start => viable_of_start ⟨[], rfl⟩ start
  · intro s u rest found note viable
    obtain ⟨rfl, rfl⟩ := endOfInput_result_eq_some_iff.mp found
    exact viable

theorem viable_barePredicate :
    Carries barePredicate (Viable fun s => ∃ p, Expression s p []) (Viable (· = [])) := by
  apply ((tracks_predicate.padded (· = []) ⟨[], rfl⟩).bind fun _ =>
    viable_endOfInput.bind fun _ => .pure _).mono ?_ fun _ _ => id
  intro s note viable
  apply viable.mono
  rintro t ⟨p, _, ⟨before, inside, after⟩, rfl⟩
  exact ⟨p, (inside.before_blanks after).after_blanks before⟩

theorem viable_statement :
    Carries statement (Viable fun s => ∃ st, StatementText s st) (Viable (· = [])) := by
  have behindCondition : ∃ t, Before Expression (· = []) t :=
    writable_comparison.exists_before ⟨[], rfl⟩
  have behindName := (writable_keyword .whereWord).exists_before behindCondition
  have behindWord := writable_name.padded.exists_before behindName
  have behindStar := (writable_keyword .fromWord).exists_before behindWord
  have behindSelect := (writable_sign '*').padded.exists_before behindStar
  apply ((tracks_keyword .selectWord _ behindSelect).bind fun _ =>
    ((tracks_char '*').padded _ behindStar).bind fun _ =>
      (tracks_keyword .fromWord _ behindWord).bind fun _ =>
        (tracks_padded_fieldName.label .collectionName _ behindName).bind fun _ =>
          (tracks_keyword .whereWord _ behindCondition).bind fun _ =>
            (tracks_predicate (· = []) ⟨[], rfl⟩).bind fun _ =>
              viable_endOfInput.bind fun _ => .pure _).mono ?_ fun _ _ => id
  intro s note viable
  apply viable.mono
  rintro t ⟨_, _, select, _, _, star, _, _, word, collection, _, name, _, _, condition, p, _,
    expression, rfl⟩
  exact ⟨_, .intro select star word name condition expression⟩

/-! ### Calls -/

/-- A character that stands for itself in a string argument is in front of every viable place of the
body. Where the place is right behind a backslash, another backslash escapes it. -/
theorem viable_of_plain {s : List Char} {note : Note} {c : Char} (notQuote : c ≠ '\x22')
    (alone : c = '\\' → ∀ d ∈ s.head?, ¬ Escapable d)
    (viable : Viable (BodyBefore Escaping '\x22' texts) s note) :
    Viable (BodyBefore Escaping '\x22' texts) (c :: s) note := by
  by_cases backslash : c = '\\'
  · subst backslash
    obtain ⟨front, behind, more, rfl, place, written, value, rest, body, split, wanted⟩ := viable
    cases front with
    | nil =>
        refine ⟨['\\'], behind, '\\' :: more, rfl, place, _, _, rest, body.escaped (.inr rfl), ?_,
          wanted⟩
        rw [List.nil_append] at split
        rw [split]
        rfl
    | cons d front =>
        have head : (written ++ ['\x22']).head? = some d := by
          rw [← head?_append_quote written rest, ← split]
          rfl
        have plain := body.plain notQuote fun _ e mem => by
          rw [head] at mem
          obtain rfl := Option.some.inj mem
          exact alone rfl d rfl
        refine ⟨'\\' :: d :: front, behind, more, rfl, place, _, _, rest, plain, ?_, wanted⟩
        rw [List.cons_append, split]
        rfl
  · apply viable.prepend [c]
    rintro t ⟨written, value, rest, body, rfl, wanted⟩
    exact ⟨_, _, rest, body.plain notQuote fun same => absurd same backslash, rfl, wanted⟩

/-- One character of a string argument: an escape, or what is none. -/
theorem viable_argumentItem (some : ∃ t, texts t) :
    Carries (escaped <|> charOtherThan '\x22') (Viable (BodyBefore Escaping '\x22' texts))
      (Viable (BodyBefore Escaping '\x22' texts)) := by
  obtain ⟨t, wanted⟩ := some
  have bodies : ∃ t, BodyBefore Escaping '\x22' texts t := ⟨_, [], [], t, .nil, rfl, wanted⟩
  let escapees : List Char → Prop := fun s =>
    ∃ c rest, s = c :: rest ∧ Escapable c ∧ BodyBefore Escaping '\x22' texts rest
  have escapable : ∃ t, escapees t := by
    obtain ⟨t, body⟩ := bodies
    exact ⟨_, '\\', t, rfl, .inr rfl, body⟩
  have escapee : Carries (oneOf ['\x22', '\\']) (Viable escapees)
      (Viable (BodyBefore Escaping '\x22' texts)) := by
    apply (stopsAtStart_oneOf _).carries
    · exact fun s note _ start => viable_of_start escapable start
    · intro s c rest found note viable
      obtain ⟨rfl, can⟩ := oneOf_result_eq_some_iff.mp found
      exact viable.prepend [c] fun t body => ⟨c, t, rfl, by simpa [Escapable] using can, body⟩
  have unescape : ∀ t, Before (Sign '\\') escapees t → BodyBefore Escaping '\x22' texts t := by
    rintro t ⟨_, _, ⟨⟩, c, _, rfl, can, written, value, rest, body, rfl, wanted⟩
    exact ⟨_, _, rest, body.escaped can, rfl, wanted⟩
  have escape : Carries escaped (Viable (BodyBefore Escaping '\x22' texts))
      (Viable (BodyBefore Escaping '\x22' texts)) :=
    ((tracks_char '\\' _ escapable).bind fun _ => escapee).mono
      (fun s note viable => viable.mono unescape) fun _ _ => id
  apply escape.orElse_of_none
  intro s noEscape
  constructor
  · intro note mem
    exact viable_of_start bodies (stopsAtStart_charOtherThan _ s note mem)
  · intro c rest found note viable
    have item : ((escaped <|> charOtherThan '\x22') s).result = some (c, rest) := by
      rw [orElse_result, noEscape, found]
      rfl
    rcases argumentItem_result_eq_some_iff.mp item with escape | ⟨rfl, notQuote, alone⟩
    · rw [escaped_result_eq_some_iff.mpr escape] at noEscape
      cases noEscape
    · exact viable_of_plain notQuote alone viable

theorem tracks_doubleQuoted : Tracks Argument doubleQuoted := by
  apply Tracks.label
  exact tracks_between .nil (fun _ _ _ body => .intro body) fun _ => viable_argumentItem

theorem writable_argument : Writable Argument :=
  ⟨['\x22', '\x22'], String.ofList [], fun _ => .intro .nil⟩

theorem writable_equal : Writable Call := by
  obtain ⟨argument, value, reading⟩ := writable_argument.padded
  refine ⟨['e', 'q', 'u', 'a', 'l'] ++ ('(' :: (argument ++ ',' :: (argument ++ [')']))),
    .equal value value, fun rest => ?_⟩
  simp only [List.append_assoc, List.cons_append, List.nil_append]
  exact .equal .intro (.intro (.refl _) .intro (.refl _)) (reading _) .intro
    (reading _) .intro

theorem tracks_equalCall : Tracks Call equalCall := by
  apply Tracks.label
  intro texts some
  have behindRight := (writable_sign ')').exists_before some
  have behindComma := writable_argument.padded.exists_before behindRight
  have behindLeft := (writable_sign ',').exists_before behindComma
  have behindOpening := writable_argument.padded.exists_before behindLeft
  have behindName := (writable_sign '(').padded.exists_before behindOpening
  apply ((tracks_chars _ _ behindName).bind fun _ =>
    ((tracks_char '(').padded _ behindOpening).bind fun _ =>
      (tracks_doubleQuoted.padded _ behindLeft).bind fun _ =>
        (tracks_char ',' _ behindComma).bind fun _ =>
          (tracks_doubleQuoted.padded _ behindRight).bind fun _ =>
            (tracks_char ')' texts some).bind fun _ => .pure _).mono ?_ fun _ _ => id
  intro s note viable
  apply viable.mono
  rintro t ⟨_, _, name, _, _, opening, field, _, left, _, _, comma, value, _, right, _, rest,
    closing, wanted⟩
  exact ⟨_, rest, .equal name opening left comma right closing, wanted⟩

section Operands

variable {operand : Parser Predicate}

theorem tracks_operands (inside : Tracks Call operand) :
    Tracks (Operands Call) (operands operand) := by
  intro texts some
  have each := (tracks_char ',').behind inside.padded writable_equal.padded
  have written : Writable (Chain (Sign ',') (Padded Call)) := by
    obtain ⟨call, p, reading⟩ := writable_equal.padded
    exact ⟨',' :: call, [p], fun rest => .one .intro (reading rest)⟩
  have behindOthers := (writable_sign ')').exists_before some
  have behindFirst := written.exists_before behindOthers
  have behindOpening := writable_equal.padded.exists_before behindFirst
  apply (((tracks_char '(').padded _ behindOpening).bind fun _ =>
    (inside.padded _ behindFirst).bind fun _ => (each.many1_chain _ behindOthers).bind fun _ =>
      (tracks_char ')' texts some).bind fun _ => .pure _).mono ?_ fun _ _ => id
  intro s note viable
  apply viable.mono
  rintro t ⟨_, _, opening, p, _, first, ps, _, others, _, rest, closing, wanted⟩
  exact ⟨_, rest, .intro opening first others closing, wanted⟩

theorem writable_operands : Writable (Operands Call) := by
  obtain ⟨call, p, reading⟩ := writable_equal.padded
  refine ⟨'(' :: (call ++ ',' :: (call ++ [')'])), [p, p], fun rest => ?_⟩
  simp only [List.append_assoc, List.cons_append, List.nil_append]
  exact .intro (.intro (.refl _) .intro (.refl _)) (reading _) (.one .intro (reading _)) .intro

/-- A call of a connective, of which both have the form. -/
theorem tracks_connective {name : List Char} {join : List Predicate → Predicate}
    (inside : Tracks Call operand)
    (whole : ∀ {s s₁ rest ps}, Letters name s () s₁ → Operands Call s₁ ps rest →
      Call s (join ps) rest) :
    Tracks Call (connective name join operand) := by
  intro texts some
  have behindName := writable_operands.exists_before some
  apply ((tracks_chars name _ behindName).bind fun _ =>
    (tracks_operands inside texts some).bind fun _ => .pure _).mono ?_ fun _ _ => id
  intro s note viable
  apply viable.mono
  rintro t ⟨_, _, named, ps, rest, list, wanted⟩
  exact ⟨_, rest, whole named list, wanted⟩

end Operands

theorem tracks_call : Tracks Call call := by
  have carries : ∀ follow : { texts : List Char → Prop // ∃ t, texts t },
      Carries call (Viable (Before Call follow.1)) (Viable follow.1) := by
    apply Carries.recursive
    intro operand inside follow
    have tracks : Tracks Call operand := fun texts some => inside ⟨texts, some⟩
    have conjunction : Tracks Call (andCall operand) :=
      (tracks_connective tracks .conjunction).label .andCall
    have disjunction : Tracks Call (orCall operand) :=
      (tracks_connective tracks .disjunction).label .orCall
    exact (tracks_equalCall follow.1 follow.2).orElse
      ((conjunction follow.1 follow.2).orElse (disjunction follow.1 follow.2))
  exact fun texts some => carries ⟨texts, some⟩

theorem viable_wholeCall :
    Carries wholeCall (Viable fun s => ∃ p, Padded Call s p []) (Viable (· = [])) := by
  apply ((tracks_call.padded (· = []) ⟨[], rfl⟩).bind fun _ =>
    viable_endOfInput.bind fun _ => .pure _).mono ?_ fun _ _ => id
  intro s note viable
  apply viable.mono
  rintro t ⟨p, _, reading, rfl⟩
  exact ⟨p, reading⟩

end Parser

end RecordQuery
