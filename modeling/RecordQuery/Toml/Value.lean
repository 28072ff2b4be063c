import RecordQuery.Decimal.Literal

/-!
# Values and tables of TOML

The values of a TOML document, and the rules by which its lines build up tables. A table may be
begun by the header of another one, by dotted keys, by its own header or between braces; which of
these it was decides what may still be added to it.
-/

namespace RecordQuery

namespace Toml

/-- A floating-point number. -/
inductive FloatValue where
  | finite (x : Binary64)
  | infinite (negative : Bool)
  | notANumber

/-- How a table came to be. -/
inductive TableOrigin where
  /-- By the header of a table inside it. -/
  | implied
  /-- By its own header. -/
  | declared
  /-- By dotted keys. -/
  | dotted
  /-- Between braces. Nothing can be added to it. -/
  | closed
deriving DecidableEq

/-- What a key stands for. -/
inductive Value where
  | string (s : String)
  | integer (n : Int)
  | float (x : FloatValue)
  | boolean (b : Bool)
  /-- A date, a time, or both. -/
  | dateTime
  /-- A number that may stand in a document, but has no value: it is too large, or lacks digits. -/
  | valueless
  | array (items : List Value)
  | table (origin : TableOrigin) (entries : List (String × Value))
  /-- An array of tables, of which only the last one can grow. -/
  | tables (earlier : List (List (String × Value))) (last : List (String × Value))

/-- The keys of a table and what they stand for, in the order of the document. -/
abbrev Entries := List (String × Value)

namespace Value

/-- Whether a value is an array or a table without content. -/
def isVacant : Value → Bool
  | array items => items.isEmpty
  | table _ entries => entries.isEmpty
  | _ => false

mutual

/-- Whether every number in a value has a value. -/
def isUsable : Value → Bool
  | valueless => false
  | array items => areUsable items
  | table _ entries => entriesUsable entries
  | tables earlier last => tablesUsable earlier && entriesUsable last
  | _ => true

/-- Whether all items of an array are usable. -/
def areUsable : List Value → Bool
  | [] => true
  | item :: rest => isUsable item && areUsable rest

/-- Whether all values of a table are usable. -/
def entriesUsable : List (String × Value) → Bool
  | [] => true
  | (_, value) :: rest => isUsable value && entriesUsable rest

/-- Whether all tables of a list are usable. -/
def tablesUsable : List (List (String × Value)) → Bool
  | [] => true
  | entries :: rest => entriesUsable entries && tablesUsable rest

end

end Value

namespace Entries

/-- Replaces what a key stands for, or adds the key, unless the change is refused. -/
def alter (key : String) (change : Option Value → Option Value) : Entries → Option Entries
  | [] => (change none).map fun v => [(key, v)]
  | (k, v) :: rest =>
    if k = key then (change (some v)).map fun v => (k, v) :: rest
    else (alter key change rest).map ((k, v) :: ·)

/-- Adds a value under a dotted key. The tables on the way are begun by dotted keys, here or before;
only beyond the first of them may the way lead through other open tables. -/
def assign (key : String) (value : Value) : List String → Entries → Option Entries
  | [], entries => entries.alter key fun
    | none => some value
    | some _ => none
  | step :: path, entries => entries.alter step fun
    | none => (assign key value path []).map (.table .dotted)
    | some (.table .dotted inner) => (assign key value path inner).map (.table .dotted)
    | some (.table .implied inner) =>
      if path.isEmpty then none else (assign key value path inner).map (.table .implied)
    | some (.tables earlier last) =>
      if path.isEmpty then none else (assign key value path last).map (.tables earlier)
    | some _ => none

/-- Changes the table at the end of a path of headers. Missing tables on the way are implied. -/
def within (change : Entries → Option Entries) : List String → Entries → Option Entries
  | [], entries => change entries
  | step :: path, entries => entries.alter step fun
    | none => (within change path []).map (.table .implied)
    | some (.table .closed _) => none
    | some (.table origin inner) => (within change path inner).map (.table origin)
    | some (.tables earlier last) => (within change path last).map (.tables earlier)
    | some _ => none

/-- Begins a table by its header. A table is declared once. -/
def declare (key : String) (path : List String) (entries : Entries) : Option Entries :=
  entries.within (fun parent => parent.alter key fun
    | none => some (.table .declared [])
    | some (.table .implied inner) => some (.table .declared inner)
    | some _ => none) path

/-- Begins the next table of an array of tables by its header. -/
def declareNext (key : String) (path : List String) (entries : Entries) : Option Entries :=
  entries.within (fun parent => parent.alter key fun
    | none => some (.tables [] [])
    | some (.tables earlier last) => some (.tables (earlier ++ [last]) [])
    | some _ => none) path

end Entries

end Toml

end RecordQuery
