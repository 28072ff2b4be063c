import RecordQuery.Engine
import RecordQuery.Predicate.Json
import RecordQuery.Config.Document
import RecordQuery.Query.Writer
import RecordQuery.Proofs.Unicode.Classes
import RecordQuery.Proofs.Query.Results
import RecordQuery.Proofs.Query.Grammar
import RecordQuery.Proofs.Query.Tokens
import RecordQuery.Proofs.Query.Expressions
import RecordQuery.Proofs.Query.Calls
import RecordQuery.Proofs.Query.Notes
import RecordQuery.Proofs.Query.Places
import RecordQuery.Proofs.Query.WrappedErrors
import RecordQuery.Proofs.Query.Writing
import RecordQuery.Proofs.Query.Detection
import RecordQuery.Proofs.Query.Registration
import RecordQuery.Proofs.Query.Wording
import RecordQuery.Proofs.Query.Dialect
import RecordQuery.Proofs.Query.DialectsApart
import RecordQuery.Proofs.Query.NoteInvariants
import RecordQuery.Proofs.Query.Viability
import RecordQuery.Proofs.Query.ViableTexts
import RecordQuery.Proofs.Query.FoundCharacters
import RecordQuery.Proofs.Query.Locality
import RecordQuery.Proofs.Decimal.Binary
import RecordQuery.Proofs.Predicate.Json
import RecordQuery.Proofs.Predicate.Leaves
import RecordQuery.Proofs.Record
import RecordQuery.Proofs.Attribute
import RecordQuery.Proofs.Attribute.Registrations
import RecordQuery.Proofs.Index.IdList
import RecordQuery.Proofs.Index.MergeLaws
import RecordQuery.Proofs.Index.Key
import RecordQuery.Proofs.Index.Postings
import RecordQuery.Proofs.Index.RecordIndex
import RecordQuery.Proofs.Index.States
import RecordQuery.Proofs.Engine.Groups
import RecordQuery.Proofs.Engine.Answer
import RecordQuery.Proofs.Engine.Satisfaction
import RecordQuery.Proofs.Engine.EntryPoints
import RecordQuery.Proofs.Engine.Collapse
import RecordQuery.Proofs.Engine.CollectionNames
import RecordQuery.Proofs.Engine.DialectAgreement
import RecordQuery.Proofs.Engine.Repetitions
import RecordQuery.Proofs.Engine.Misfits
import RecordQuery.Proofs.Failure
import RecordQuery.Proofs.Engine.Failures
import RecordQuery.Proofs.Engine.BarePredicates
import RecordQuery.Proofs.Engine.Neighbours
import RecordQuery.Proofs.Query.ErrorPlaces
import RecordQuery.Proofs.Decimal.Nearest
import RecordQuery.Proofs.Decimal.Value
import RecordQuery.Proofs.Decimal.Spelling
import RecordQuery.Proofs.Decimal.Writing
import RecordQuery.Proofs.Decimal.Rounding
import RecordQuery.Proofs.Decimal.Shortest
import RecordQuery.Proofs.Decimal.Layout
import RecordQuery.Proofs.Index.OwnText
import RecordQuery.Proofs.Index.Spellings
import RecordQuery.Proofs.Index.Representation
import RecordQuery.Proofs.Engine.OriginHistories
import RecordQuery.Proofs.Json
import RecordQuery.Proofs.Shape
import RecordQuery.Proofs.Engine.OneShape
