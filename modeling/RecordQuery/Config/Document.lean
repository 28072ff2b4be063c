import RecordQuery.Config
import RecordQuery.Toml.Document
import RecordQuery.Json

/-!
# Settings from a document

The settings of an engine as a TOML document. Keys that are not settings are skipped, as long as the
numbers under them have values, and a setting without a key keeps its default. Of several wrong
values the first one by key is reported.
-/

namespace RecordQuery

/-- Why a document holds no settings. -/
inductive ConfigError where
  /-- The text is not a document. -/
  | malformed
  /-- The name of the collection is something else than a string. -/
  | notAString (found : String)
  /-- A number that was asked for has no value. -/
  | valueless
  /-- A policy is given by something else than a name. -/
  | notAName
  /-- No policy has the name. -/
  | unknownName (found : String) (known : List String)
deriving DecidableEq

namespace ConfigError

/-- A name between backticks. -/
def ticked (name : String) : String := "`" ++ name ++ "`"

/-- The known names in words. -/
def choices (known : List String) : String :=
  match known.map ticked with
  | [a, b] => a ++ " or " ++ b
  | names => "one of " ++ String.intercalate ", " names

/-- The error in words, where the error has words of its own. -/
def message? : ConfigError → Option String
  | malformed => none
  | notAString found => some ("invalid type: " ++ found ++ ", expected a string")
  | valueless => none
  | notAName => none
  | unknownName found known =>
    some ("unknown variant " ++ ticked found ++ ", expected " ++ choices known)

end ConfigError

namespace Toml

/-- A floating-point number in words. -/
def FloatValue.text : FloatValue → String
  | finite x => FloatLayout.fixed.write x
  | infinite negative => if negative then "-inf" else "inf"
  | notANumber => "NaN"

/-- A whole number in words. Beyond the ranges of 64 bits its width is named. -/
def describeInteger (n : Int) : String :=
  "integer " ++ ConfigError.ticked (toString n) ++
    if Number.fits64 n then "" else if fitsSigned128 n then " as i128" else " as u128"

/-- A value in words. -/
def Value.describe : Value → String
  | string s => "string " ++ "\"" ++ s ++ "\""
  | integer n => describeInteger n
  | float x => "floating point " ++ ConfigError.ticked x.text
  | boolean b => "boolean " ++ ConfigError.ticked (toString b)
  | dateTime => "map"
  | valueless => "number"
  | array _ => "sequence"
  | table _ _ => "map"
  | tables _ _ => "sequence"

end Toml

namespace EngineConfig

/-- The name of the collection. -/
def readCollection : Toml.Value → Except ConfigError String
  | .string s => .ok s
  | .valueless => .error .valueless
  | other => .error (.notAString other.describe)

/-- A policy, given by its name. The name may also be the one key of a table, if nothing is kept
under it. -/
def readPolicy {α : Type} (byName : List (String × α)) (value : Toml.Value) :
    Except ConfigError α := do
  let (name, complete) ← match value with
    | .string name => .ok (name, true)
    | .table _ [(name, content)] => .ok (name, content.isVacant)
    | _ => .error .notAName
  match byName.lookup name with
  | some policy => if complete then .ok policy else .error .notAName
  | none => .error (.unknownName name (byName.map Prod.fst))

/-- The settings after one more entry of a document. An entry that is no setting changes nothing. -/
def addEntry (config : EngineConfig) (key : String) (value : Toml.Value) :
    Except ConfigError EngineConfig :=
  if key = "collection" then
    (readCollection value).map fun collection => { config with collection }
  else if key = "duplicates" then
    (readPolicy DuplicatePolicy.byName value).map fun duplicates => { config with duplicates }
  else if key = "mixed_types" then
    (readPolicy MixedTypePolicy.byName value).map fun mixedTypes => { config with mixedTypes }
  else if value.isUsable then .ok config
  else .error .valueless

/-- Reads the settings from a document. Its entries are taken by ascending key. -/
def ofDocument (text : String) : Except ConfigError EngineConfig :=
  match Toml.parse? text with
  | none => .error .malformed
  | some document => (SortedMap.ofList document).entries.foldlM (fun config (key, value) =>
      config.addEntry key value) {}

end EngineConfig

end RecordQuery
