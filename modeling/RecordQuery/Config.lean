/-!
# Settings of the engine

What the engine does where a query does not say: under which name a bare predicate runs, and what
becomes of objects with equal records and of texts in a numeric field.
-/

namespace RecordQuery

/-- What to do with objects that have equal records. -/
inductive DuplicatePolicy where
  /-- Keep the earliest object. -/
  | keepFirst
  /-- Keep the latest object. -/
  | keepLast
  /-- Keep every object. -/
  | keepAll
  /-- Fail. -/
  | reject
deriving DecidableEq

/-- What to do with a value that is not a number under a numeric attribute. -/
inductive MixedTypePolicy where
  /-- Compare it as text. -/
  | textFallback
  /-- Fail. -/
  | reject
deriving DecidableEq

/-- The settings of an engine. -/
structure EngineConfig where
  /-- The name under which a bare predicate runs. -/
  collection : String := "objects"
  duplicates : DuplicatePolicy := .keepLast
  mixedTypes : MixedTypePolicy := .textFallback
deriving DecidableEq

namespace DuplicatePolicy

/-- The policies by the names that a document gives them. -/
def byName : List (String × DuplicatePolicy) :=
  [("keep_first", keepFirst), ("keep_last", keepLast), ("keep_all", keepAll), ("reject", reject)]

/-- The name of the policy in a document. -/
def name : DuplicatePolicy → String
  | keepFirst => "keep_first"
  | keepLast => "keep_last"
  | keepAll => "keep_all"
  | reject => "reject"

end DuplicatePolicy

namespace MixedTypePolicy

/-- The policies by the names that a document gives them. -/
def byName : List (String × MixedTypePolicy) :=
  [("text_fallback", textFallback), ("reject", reject)]

/-- The name of the policy in a document. -/
def name : MixedTypePolicy → String
  | textFallback => "text_fallback"
  | reject => "reject"

end MixedTypePolicy

end RecordQuery
