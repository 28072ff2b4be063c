import RecordQuery.Json
import RecordQuery.Proofs.Decimal.Writing

/-!
# The text of a JSON value determines the value

Compact text is read without looking ahead: the first character tells the kind of a value, a number ends
at the first character of which no number is written, a string ends at the first quotation mark that is
not escaped, and behind every item stands a comma or a closing bracket. So no two values are written
alike, whatever follows them.

## Implementation notes

The induction speaks of values with any texts behind them, because that is how the items of an array and
the members of an object stand in its text.
-/

namespace RecordQuery

open Decimal

/-! ### Numbers -/

namespace FloatLayout

/-- The text of a binary value has a point or an exponent. -/
theorem point_or_exponent_mem_write {f : BinaryFormat} (layout : FloatLayout) (x : Binary f) :
    '.' ∈ (layout.write x).toList ∨ 'e' ∈ (layout.write x).toList := by
  have placed (digits : List Char) (order : Int) : '.' ∈ placePoint digits order := by
    unfold placePoint
    split <;> simp
  have raised (digits : List Char) (order : Int) : 'e' ∈ placeExponent digits order := by
    unfold placeExponent
    simp
  unfold write
  dsimp only
  generalize (if x.negative then ['-'] else []) = sign
  split
  · rw [String.toList_ofList]
    exact .inl (List.mem_append_right sign (by simp))
  · rw [String.toList_ofList]
    split
    · exact .inl (List.mem_append_right sign (placed _ _))
    · exact .inr (List.mem_append_right sign (raised _ _))

end FloatLayout

namespace Number

/-- The text of a number spells a number. -/
theorem exists_denotes (n : Number) : ∃ q, Denotes n.text.toList q := by
  cases n with
  | integer n => exact ⟨n, denotes_integer n⟩
  | float x =>
      obtain ⟨d, -, -, denotes⟩ := FloatLayout.double.denotes_write x
      exact ⟨d.value, denotes⟩

/-- The text of a number has only the characters of which numbers are written. -/
theorem numerals_text (n : Number) : ∀ c ∈ n.text.toList, isNumeral c = true := by
  obtain ⟨q, denotes⟩ := n.exists_denotes
  exact denotes.numerals

theorem text_ne_nil (n : Number) : n.text.toList ≠ [] := by
  obtain ⟨q, denotes⟩ := n.exists_denotes
  intro empty
  rw [empty] at denotes
  obtain ⟨d, read, -⟩ := parse?_of_denotes denotes
  cases read

/-- The text of a whole number has neither a point nor an exponent. -/
theorem digit_or_minus_of_mem_integer (n : Int) :
    ∀ c ∈ (toString n).toList, isDigit c = true ∨ c = '-' := by
  intro c mem
  cases n with
  | ofNat m => exact .inl (digits_repr m c mem)
  | negSucc m =>
      change c ∈ ("-" ++ (m + 1).repr).toList at mem
      rw [String.toList_append, List.mem_append] at mem
      rcases mem with minus | digit
      · exact .inr (List.mem_singleton.mp minus)
      · exact .inl (digits_repr (m + 1) c digit)

/-- No whole number has the text of a binary value. -/
theorem text_integer_ne_text_float (n : Int) (x : Binary64) :
    (integer n).text ≠ (float x).text := by
  intro same
  have written := FloatLayout.double.point_or_exponent_mem_write x
  rw [text, text] at same
  rw [← same] at written
  rcases written with point | exponent
  · rcases digit_or_minus_of_mem_integer n _ point with digit | minus
    · exact absurd digit (by decide)
    · exact absurd minus (by decide)
  · rcases digit_or_minus_of_mem_integer n _ exponent with digit | minus
    · exact absurd digit (by decide)
    · exact absurd minus (by decide)

/-- Different numbers have different texts. -/
theorem eq_of_text_eq {n m : Number} (same : n.text = m.text) : n = m := by
  cases n with
  | integer i =>
      cases m with
      | integer j =>
          obtain ⟨d, read, value⟩ := parse?_of_denotes (denotes_integer i)
          obtain ⟨d', read', value'⟩ := parse?_of_denotes (denotes_integer j)
          rw [text, text] at same
          rw [same, read'] at read
          obtain rfl := Option.some.inj read
          rw [value'] at value
          rw [Int.cast_inj.mp value]
      | float y => exact absurd same (text_integer_ne_text_float i y)
  | float x =>
      cases m with
      | integer j => exact absurd same.symm (text_integer_ne_text_float j x)
      | float y =>
          rw [text, text] at same
          have read := FloatLayout.double.readNumber_write x
          rw [same, FloatLayout.double.readNumber_write y] at read
          have number := Binary.sameNumber_iff.mpr (Option.some.inj read).symm
          rw [Binary.eq_of_sameNumber_of_write_eq number same]

end Number

namespace Json

/-! ### Strings -/

/-- The number below sixteen that a hexadecimal digit stands for. -/
def hexValue (c : Char) : Nat := if c.toNat < 58 then c.toNat - 48 else c.toNat - 87

/-- Reads what stands behind a backslash. -/
def afterBackslash? : List Char → Option (Char × List Char)
  | 'u' :: _ :: _ :: high :: low :: rest =>
    some (Char.ofNat (16 * hexValue high + hexValue low), rest)
  | 'b' :: rest => some ('\x08', rest)
  | 'f' :: rest => some ('\x0c', rest)
  | 'n' :: rest => some ('\n', rest)
  | 'r' :: rest => some ('\r', rest)
  | 't' :: rest => some ('\t', rest)
  | c :: rest => some (c, rest)
  | [] => none

/-- Reads one character inside quotes. There is none where the string ends. -/
def unescape? : List Char → Option (Char × List Char)
  | [] => none
  | c :: rest =>
    if c = '\x22' then none else if c = '\\' then afterBackslash? rest else some (c, rest)

theorem hexValue_hexDigit : ∀ n < 16, hexValue (hexDigit n) = n := by decide

/-- An escaped character is read as the character, whatever follows. -/
theorem unescape?_escape (c : Char) (rest : List Char) :
    unescape? (escape c ++ rest) = some (c, rest) := by
  unfold escape
  split
  · rfl
  · rfl
  · rfl
  · rfl
  · rfl
  · rfl
  · rfl
  · rename_i noQuote noBackslash _ _ _ _ _
    split
    · rename_i control
      change some (Char.ofNat (16 * hexValue (hexDigit (c.toNat / 16)) +
        hexValue (hexDigit (c.toNat % 16))), rest) = some (c, rest)
      rw [hexValue_hexDigit _ (by omega), hexValue_hexDigit _ (by omega), Nat.div_add_mod,
        Char.ofNat_toNat]
    · rw [List.singleton_append, unescape?, if_neg noQuote, if_neg noBackslash]

/-- What stands between two quotation marks ends where the string does. -/
theorem eq_of_body_append {s t u v : List Char}
    (same : s.flatMap escape ++ '\x22' :: u = t.flatMap escape ++ '\x22' :: v) :
    s = t ∧ u = v := by
  have first (c : Char) (rest more : List Char) :
      unescape? ((c :: rest).flatMap escape ++ more) =
        some (c, rest.flatMap escape ++ more) := by
    rw [List.flatMap_cons, List.append_assoc, unescape?_escape]
  have last (more : List Char) : unescape? ([].flatMap escape ++ '\x22' :: more) = none := rfl
  induction s generalizing t with
  | nil =>
      cases t with
      | nil => exact ⟨rfl, (List.cons.inj same).2⟩
      | cons d others =>
          have read := congrArg unescape? same
          rw [last, first] at read
          cases read
  | cons c rest ih =>
      have read := congrArg unescape? same
      cases t with
      | nil =>
          rw [last, first] at read
          cases read
      | cons d others =>
          rw [first, first] at read
          obtain ⟨rfl, behind⟩ := Prod.mk.inj (Option.some.inj read)
          obtain ⟨rfl, after⟩ := ih behind
          exact ⟨rfl, after⟩

/-- A quoted string ends where it does, whatever follows. -/
theorem eq_of_quote_append {s t : String} {u v : List Char} (same : quote s ++ u = quote t ++ v) :
    s = t ∧ u = v := by
  have body (s : String) (u : List Char) :
      quote s ++ u = '\x22' :: (s.toList.flatMap escape ++ '\x22' :: u) := by simp [quote]
  rw [body, body] at same
  obtain ⟨chars, after⟩ := eq_of_body_append (List.cons.inj same).2
  exact ⟨String.toList_inj.mp chars, after⟩

/-! ### Kinds -/

/-- The kinds of values of JSON. -/
inductive Kind where
  | null
  | boolean
  | number
  | string
  | array
  | object
deriving DecidableEq

/-- The kind of a value. -/
def kind : Json → Kind
  | null => .null
  | boolean _ => .boolean
  | number _ => .number
  | string _ => .string
  | array _ => .array
  | object _ => .object

/-- The kind of the values whose text begins with a character, if there are any. -/
def Kind.ofFirst? (c : Char) : Option Kind :=
  if c = 'n' then some .null
  else if c = 't' ∨ c = 'f' then some .boolean
  else if c = '\x22' then some .string
  else if c = '[' then some .array
  else if c = '\x7b' then some .object
  else if isNumeral c then some .number
  else none

theorem Kind.ofFirst?_of_isNumeral {c : Char} (numeral : isNumeral c = true) :
    Kind.ofFirst? c = some .number := by
  have differs (d : Char) (other : isNumeral d = false) : c ≠ d := by
    rintro rfl
    rw [numeral] at other
    cases other
  simp [ofFirst?, numeral, differs 'n' (by decide), differs 't' (by decide),
    differs 'f' (by decide), differs '\x22' (by decide), differs '[' (by decide),
    differs '\x7b' (by decide)]

/-- The text of a value begins with a character that tells its kind. -/
theorem exists_first (v : Json) :
    ∃ c rest, v.render = c :: rest ∧ Kind.ofFirst? c = some v.kind := by
  cases v with
  | null => exact ⟨_, _, rfl, rfl⟩
  | boolean b => cases b <;> exact ⟨_, _, rfl, rfl⟩
  | number n =>
      obtain ⟨c, rest, text⟩ := List.exists_cons_of_ne_nil n.text_ne_nil
      refine ⟨c, rest, text, Kind.ofFirst?_of_isNumeral (n.numerals_text c ?_)⟩
      rw [text]
      exact List.mem_cons_self ..
  | string s => exact ⟨_, _, rfl, rfl⟩
  | array items => exact ⟨_, _, rfl, rfl⟩
  | object members => exact ⟨_, _, rfl, rfl⟩

/-- Values with the same text, whatever follows, are of one kind. -/
theorem kind_eq_of_render_append {v w : Json} {s t : List Char}
    (same : v.render ++ s = w.render ++ t) : v.kind = w.kind := by
  obtain ⟨c, rest, text, kind⟩ := v.exists_first
  obtain ⟨d, more, text', kind'⟩ := w.exists_first
  rw [text, text', List.cons_append, List.cons_append] at same
  rw [(List.cons.inj same).1, kind'] at kind
  exact (Option.some.inj kind).symm

/-! ### Items and members -/

/-- Whether a text can stand behind a value: it is empty or begins with a comma or a closing bracket. -/
def Delimits (s : List Char) : Prop := ∀ c ∈ s.head?, c = ',' ∨ c = ']' ∨ c = '\x7d'

theorem delimits_nil : Delimits [] := by
  intro c head
  cases head

theorem delimits_cons {c : Char} (delimiter : c = ',' ∨ c = ']' ∨ c = '\x7d') (rest : List Char) :
    Delimits (c :: rest) := by
  intro d head
  exact Option.some.inj head ▸ delimiter

/-- Pieces with a comma in front of each, and a closing bracket behind them. -/
def listed (pieces : List (List Char)) (close : Char) (rest : List Char) : List Char :=
  pieces.flatMap (fun piece => ',' :: piece) ++ close :: rest

theorem listed_cons (piece : List Char) (pieces : List (List Char)) (close : Char)
    (rest : List Char) :
    listed (piece :: pieces) close rest = ',' :: (piece ++ listed pieces close rest) := by
  simp [listed]

/-- The first of several pieces has no comma in front of it. -/
theorem intercalate_append (piece : List Char) (pieces : List (List Char)) (close : Char)
    (rest : List Char) :
    [','].intercalate (piece :: pieces) ++ close :: rest = piece ++ listed pieces close rest := by
  induction pieces generalizing piece with
  | nil => simp [listed]
  | cons next others ih =>
      rw [List.intercalate_cons_cons, List.append_assoc, List.append_assoc, ih, listed_cons]
      rfl

/-- Whether no piece begins with the closing bracket. -/
def Opens (pieces : List (List Char)) (close : Char) : Prop :=
  ∀ piece ∈ pieces, ∀ rest more, piece ++ rest ≠ close :: more

/-- Where no piece begins with the closing bracket, a comma in front of the first one makes no
difference. -/
theorem listed_eq_of_intercalate_eq {pieces others : List (List Char)} {close : Char}
    {s t : List Char} (opens : Opens pieces close) (opens' : Opens others close)
    (same : [','].intercalate pieces ++ close :: s = [','].intercalate others ++ close :: t) :
    listed pieces close s = listed others close t := by
  cases pieces with
  | nil =>
      cases others with
      | nil => exact same
      | cons other more =>
          rw [intercalate_append] at same
          exact absurd same.symm (opens' other (List.mem_cons_self ..) _ _)
  | cons piece rest =>
      cases others with
      | nil =>
          rw [intercalate_append] at same
          exact absurd same (opens piece (List.mem_cons_self ..) _ _)
      | cons other more =>
          rw [intercalate_append, intercalate_append] at same
          rw [listed_cons, listed_cons, same]

theorem delimits_listed {close : Char} (closing : close = ']' ∨ close = '\x7d')
    (pieces : List (List Char)) (rest : List Char) : Delimits (listed pieces close rest) := by
  cases pieces with
  | nil => exact delimits_cons (.inr closing) rest
  | cons piece others =>
      rw [listed_cons]
      exact delimits_cons (.inl rfl) _

/-- A number ends where something else begins. -/
theorem eq_of_number_append {n m : Number} {s t : List Char} (hs : Delimits s) (ht : Delimits t)
    (same : n.text.toList ++ s = m.text.toList ++ t) : n = m ∧ s = t := by
  have ends {s : List Char} (delimits : Delimits s) : ∀ c ∈ s.head?, isNumeral c = false := by
    intro c head
    rcases delimits c head with rfl | rfl | rfl <;> decide
  obtain ⟨row, rest⟩ := span_append n.numerals_text (ends hs)
  obtain ⟨row', rest'⟩ := span_append m.numerals_text (ends ht)
  rw [same, row'] at row
  rw [same, rest'] at rest
  exact ⟨Number.eq_of_text_eq (String.toList_inj.mp row.symm), rest.symm⟩

/-- No value begins with a closing bracket. -/
theorem opens_renderItems (items : List Json) : Opens (renderItems items) ']' := by
  intro piece mem rest more same
  induction items with
  | nil => exact absurd mem List.not_mem_nil
  | cons item others ih =>
      rw [renderItems] at mem
      rcases List.mem_cons.mp mem with rfl | mem
      · obtain ⟨c, tail, text, kind⟩ := item.exists_first
        rw [text] at same
        rw [(List.cons.inj same).1] at kind
        cases kind
      · exact ih mem

/-- Members begin with a quotation mark. -/
theorem opens_renderMembers (members : List (String × Json)) :
    Opens (renderMembers members) '\x7d' := by
  intro piece mem rest more same
  induction members with
  | nil => exact absurd mem List.not_mem_nil
  | cons member others ih =>
      rw [renderMembers] at mem
      rcases List.mem_cons.mp mem with rfl | mem
      · exact absurd (List.cons.inj same).1 (by decide)
      · exact ih mem

/-- Arrays with the same text have the same items in the same text. -/
theorem listed_eq_of_array_append {items others : List Json} {s t : List Char}
    (same : (array items).render ++ s = (array others).render ++ t) :
    listed (renderItems items) ']' s = listed (renderItems others) ']' t := by
  have body (items : List Json) (s : List Char) : (array items).render ++ s =
      '[' :: ([','].intercalate (renderItems items) ++ ']' :: s) := by simp [render]
  rw [body, body] at same
  exact listed_eq_of_intercalate_eq (opens_renderItems _) (opens_renderItems _)
    (List.cons.inj same).2

/-- Objects with the same text have the same members in the same text. -/
theorem listed_eq_of_object_append {members others : List (String × Json)} {s t : List Char}
    (same : (object members).render ++ s = (object others).render ++ t) :
    listed (renderMembers members) '\x7d' s = listed (renderMembers others) '\x7d' t := by
  have body (members : List (String × Json)) (s : List Char) : (object members).render ++ s =
      '\x7b' :: ([','].intercalate (renderMembers members) ++ '\x7d' :: s) := by simp [render]
  rw [body, body] at same
  exact listed_eq_of_intercalate_eq (opens_renderMembers _) (opens_renderMembers _)
    (List.cons.inj same).2

mutual

/-- Values with the same text are the same, whatever follows them. -/
theorem eq_of_render_append : ∀ (v w : Json) {s t : List Char}, Delimits s → Delimits t →
    v.render ++ s = w.render ++ t → v = w ∧ s = t
  | null, w, s, t, _, _, same => by
      cases w with
      | null => exact ⟨rfl, List.append_cancel_left same⟩
      | _ => cases kind_eq_of_render_append same
  | boolean b, w, s, t, _, _, same => by
      cases w with
      | boolean d =>
          cases b <;> cases d
          · exact ⟨rfl, List.append_cancel_left same⟩
          · exact absurd (List.cons.inj same).1 (by decide)
          · exact absurd (List.cons.inj same).1 (by decide)
          · exact ⟨rfl, List.append_cancel_left same⟩
      | _ => cases kind_eq_of_render_append same
  | number n, w, s, t, hs, ht, same => by
      cases w with
      | number m => exact (eq_of_number_append hs ht same).imp_left (congrArg number)
      | _ => cases kind_eq_of_render_append same
  | string a, w, s, t, _, _, same => by
      cases w with
      | string b => exact (eq_of_quote_append same).imp_left (congrArg string)
      | _ => cases kind_eq_of_render_append same
  | array items, w, s, t, _, _, same => by
      cases w with
      | array others =>
          have inner := listed_eq_of_array_append same
          exact (eq_of_listed_items items others inner).imp_left (congrArg array)
      | _ => cases kind_eq_of_render_append same
  | object members, w, s, t, _, _, same => by
      cases w with
      | object others =>
          have inner := listed_eq_of_object_append same
          exact (eq_of_listed_members members others inner).imp_left (congrArg object)
      | _ => cases kind_eq_of_render_append same

theorem eq_of_listed_items : ∀ (items others : List Json) {s t : List Char},
    listed (renderItems items) ']' s = listed (renderItems others) ']' t → items = others ∧ s = t
  | [], [], s, t, same => ⟨rfl, (List.cons.inj same).2⟩
  | [], _ :: _, s, t, same => absurd (List.cons.inj same).1 (by decide)
  | _ :: _, [], s, t, same => absurd (List.cons.inj same).1 (by decide)
  | item :: rest, other :: more, s, t, same => by
      rw [renderItems, renderItems, listed_cons, listed_cons] at same
      obtain ⟨rfl, behind⟩ := eq_of_render_append item other
        (delimits_listed (.inl rfl) _ _) (delimits_listed (.inl rfl) _ _) (List.cons.inj same).2
      exact (eq_of_listed_items rest more behind).imp_left (congrArg (item :: ·))

theorem eq_of_listed_members : ∀ (members others : List (String × Json)) {s t : List Char},
    listed (renderMembers members) '\x7d' s = listed (renderMembers others) '\x7d' t →
      members = others ∧ s = t
  | [], [], s, t, same => ⟨rfl, (List.cons.inj same).2⟩
  | [], _ :: _, s, t, same => absurd (List.cons.inj same).1 (by decide)
  | _ :: _, [], s, t, same => absurd (List.cons.inj same).1 (by decide)
  | (key, value) :: rest, (other, image) :: more, s, t, same => by
      rw [renderMembers, renderMembers, listed_cons, listed_cons, List.append_assoc,
        List.append_assoc] at same
      obtain ⟨rfl, colon⟩ := eq_of_quote_append (List.cons.inj same).2
      obtain ⟨rfl, behind⟩ := eq_of_render_append value image
        (delimits_listed (.inr rfl) _ _) (delimits_listed (.inr rfl) _ _) (List.cons.inj colon).2
      exact (eq_of_listed_members rest more behind).imp_left (congrArg ((key, value) :: ·))

end

/-- Different values have different texts. -/
theorem text_injective {v w : Json} (same : v.text = w.text) : v = w := by
  have chars : v.render ++ [] = w.render ++ [] := by
    rw [List.append_nil, List.append_nil]
    exact String.ofList_inj.mp same
  exact (eq_of_render_append v w delimits_nil delimits_nil chars).1

end Json

end RecordQuery
