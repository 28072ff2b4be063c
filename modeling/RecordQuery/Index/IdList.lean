/-!
# Ascending lists of identifiers

Records are identified by their position. The answer of a query is a strictly ascending list of
identifiers, and conjunction and disjunction merge such lists.
-/

namespace RecordQuery

/-- The position of a record among the distinct records. -/
abbrev RecordId := Nat

namespace IdList

/-- The identifiers in both lists. -/
def intersect : List RecordId → List RecordId → List RecordId
  | [], _ => []
  | _, [] => []
  | a :: as, b :: bs =>
    if a < b then intersect as (b :: bs)
    else if b < a then intersect (a :: as) bs
    else a :: intersect as bs
termination_by as bs => as.length + bs.length

/-- The identifiers in either list. -/
def union : List RecordId → List RecordId → List RecordId
  | [], bs => bs
  | as, [] => as
  | a :: as, b :: bs =>
    if a < b then a :: union as (b :: bs)
    else if b < a then b :: union (a :: as) bs
    else a :: union as bs
termination_by as bs => as.length + bs.length

end IdList

end RecordQuery
