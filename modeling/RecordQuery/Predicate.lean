/-!
# Predicates

A predicate is the meaning of a query: equality tests on fields, combined by conjunctions and
disjunctions of any number of children. Every dialect is read into this tree, and the index
evaluates nothing else.
-/

namespace RecordQuery

/-- A Boolean condition on the fields of a record. -/
inductive Predicate where
  /-- The field has the value. -/
  | equal (field value : String)
  /-- Every child holds. -/
  | and (children : List Predicate)
  /-- Some child holds. -/
  | or (children : List Predicate)

namespace Predicate

mutual

/-- The fields of all leaves, from left to right, with repetitions. -/
def leafFields : Predicate → List String
  | equal field _ => [field]
  | and children => leafFieldsAll children
  | or children => leafFieldsAll children

/-- The fields of all leaves of a list of trees, from left to right, with repetitions. -/
def leafFieldsAll : List Predicate → List String
  | [] => []
  | child :: rest => leafFields child ++ leafFieldsAll rest

end

mutual

/-- Adds the fields of a tree that are not yet in the list, in the order in which they are met. -/
def addFields (seen : List String) : Predicate → List String
  | equal field _ => if field ∈ seen then seen else seen ++ [field]
  | and children => addFieldsAll seen children
  | or children => addFieldsAll seen children

/-- Adds the fields of each tree in turn. -/
def addFieldsAll (seen : List String) : List Predicate → List String
  | [] => seen
  | child :: rest => addFieldsAll (addFields seen child) rest

end

/-- The fields that the predicate tests, each once, in the order of their first leaves. -/
def fields (p : Predicate) : List String := p.addFields []

end Predicate

end RecordQuery
