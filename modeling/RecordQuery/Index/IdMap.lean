import RecordQuery.Record
import RecordQuery.Index.IdList

/-!
# Identifiers by record

A map gives the identifier of a stored record without a search of the records. Records are looked up by
equality, so that a stored record is found under every record that equals it.
-/

namespace RecordQuery

/-- Identifiers of records. A later entry hides an earlier one of an equal record. -/
structure IdMap where
  entries : List (Record × RecordId)

namespace IdMap

/-- No record has an identifier. -/
def empty : IdMap := ⟨[]⟩

/-- The identifier of a record. -/
def find? (ids : IdMap) (record : Record) : Option RecordId :=
  (ids.entries.find? fun entry => entry.1.same record).map Prod.snd

/-- Gives a record an identifier. -/
def insert (ids : IdMap) (record : Record) (id : RecordId) : IdMap := ⟨(record, id) :: ids.entries⟩

end IdMap

end RecordQuery
