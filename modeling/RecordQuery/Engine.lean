import RecordQuery.Index.RecordIndex
import RecordQuery.Origins

/-!
# The query engine

The engine selects from a list of objects those that satisfy a query. It reads the query, flattens
the objects, classifies their fields, indexes the distinct records, evaluates the predicate and goes
back from records to objects. The stages fail in this order, and no state outlives a query.
-/

namespace RecordQuery

variable {α : Type}

/-- An engine with its settings and dialects. -/
structure QueryEngine where
  config : EngineConfig := {}
  dialects : DialectRegistry := .standard

namespace QueryEngine

/-- The records of the objects from the given position on, or the failure of the first object that
has none. -/
def flattenAll (flatten : α → Except FlattenError Record) :
    Nat → List α → Except EvalError (List Record)
  | _, [] => .ok []
  | position, object :: rest =>
    match flatten object with
    | .error e => .error (.unflattened position e)
    | .ok record =>
      match flattenAll flatten (position + 1) rest with
      | .error e => .error e
      | .ok records => .ok (record :: records)

/-- Stores the records and notes the objects as their origins, from the given position on. -/
def correlate (index : RecordIndex) (origins : Origins α) :
    Nat → List (Record × α) → Except EvalError (RecordIndex × Origins α)
  | _, [] => .ok (index, origins)
  | position, (record, object) :: rest =>
    let (index, id) := index.insert record
    match origins.insert id position object with
    | (_, .error e) => .error e
    | (origins, .ok ()) => correlate index origins (position + 1) rest

/-- The objects that satisfy a predicate. -/
def select (config : EngineConfig) (flatten : α → Except FlattenError Record) (objects : List α)
    (predicate : Predicate) : Except EvalError (List α) := do
  let records ← flattenAll flatten 0 objects
  let registry := AttributeRegistry.ofRecords records
  let (index, origins) ←
    correlate RecordIndex.empty (Origins.empty config.duplicates) 0 (records.zip objects)
  let (index, indexed) := index.indexAttributes registry config.mixedTypes
  indexed
  let ids ← index.evaluate predicate registry
  return ids.flatMap origins.resolve

/-- The objects that satisfy a query in the given dialect. -/
def run (engine : QueryEngine) (flatten : α → Except FlattenError Record) (objects : List α)
    (dialect : Dialect) (query : String) : Except QueryError (List α) :=
  match dialect.parse query with
  | .error e => .error (.ofFailure (EvalError.unreadable dialect.name e))
  | .ok predicate =>
    match select engine.config flatten objects predicate with
    | .error e => .error (.ofFailure e)
    | .ok found => .ok found

/-- The objects that satisfy a bare predicate. It runs as a statement on the configured collection,
so the place of a syntax error is its place in that statement. -/
def findByPredicate (engine : QueryEngine) (flatten : α → Except FlattenError Record)
    (objects : List α) (predicate : String) : Except QueryError (List α) :=
  engine.run flatten objects .statement (Statement.wrap engine.config.collection predicate)

/-- The objects that satisfy a query in call notation. -/
def findByCall (engine : QueryEngine) (flatten : α → Except FlattenError Record)
    (objects : List α) (query : String) : Except QueryError (List α) :=
  engine.run flatten objects .call query

/-- The objects that satisfy a query in whichever dialect takes charge of it. -/
def find (engine : QueryEngine) (flatten : α → Except FlattenError Record) (objects : List α)
    (query : String) : Except QueryError (List α) :=
  match engine.dialects.detect? query with
  | some dialect => engine.run flatten objects dialect query
  | none => .error (.ofFailure (ParseError.noDialect query engine.dialects.names))

end QueryEngine

end RecordQuery
