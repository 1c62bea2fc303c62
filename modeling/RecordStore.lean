import RecordStore.Error.Stated
import RecordStore.Script
import RecordStore.Storage
import RecordStore.Store
import RecordStore.Tagged
import RecordStore.Predicate.Builder
import RecordStore.Predicate.Form
import RecordStore.Model.Codec
import RecordStore.Document.Backend
import RecordStore.Document.Connection
import RecordStore.Document.Script
import RecordStore.Proofs.Predicate.Evaluation
import RecordStore.Proofs.Cursor
import RecordStore.Proofs.Document.Matching
import RecordStore.Proofs.Filter.Acceptance
import RecordStore.Proofs.Filter.Translation
import RecordStore.Proofs.Plan.Strategies
import RecordStore.Proofs.Stream.Accounting
import RecordStore.Proofs.Stream.Retry
import RecordStore.Proofs.Value.Order
import RecordStore.Proofs.Document.Paging
import RecordStore.Proofs.Document.Collections
import RecordStore.Proofs.Document.Mirror
import RecordStore.Proofs.Storage.Reading
import RecordStore.Proofs.Storage.Ledger
import RecordStore.Proofs.Ordering
import RecordStore.Proofs.Predicate.Depth
import RecordStore.Proofs.Predicate.Grammar
import RecordStore.Proofs.Model.Masking
import RecordStore.Proofs.Storage.Identity
import RecordStore.Proofs.Number.Rounding
import RecordStore.Proofs.Number.Shortest
import RecordStore.Proofs.Json.Number
import RecordStore.Proofs.Json.Strings
import RecordStore.Proofs.Json.RoundTrip
import RecordStore.Proofs.Model.Restoring
import RecordStore.Proofs.Storage.Restoring
import RecordStore.Proofs.Stream.Scanning
import RecordStore.Proofs.Predicate.Faults
import RecordStore.Proofs.Predicate.Errors
import RecordStore.Proofs.Json.Depth
import RecordStore.Proofs.Json.Readable
import RecordStore.Proofs.Sorting
import RecordStore.Proofs.Predicate.RoundTrip
import RecordStore.Proofs.Filter.Folding
import RecordStore.Proofs.Predicate.FirstFault
import RecordStore.Proofs.Plan.Answer
import RecordStore.Proofs.Storage.Lifecycle
import RecordStore.Proofs.Model.Concealment
import RecordStore.Proofs.Cursor.Malformed
import RecordStore.Proofs.Document.Scope
import RecordStore.Proofs.Predicate.Building
import RecordStore.Proofs.Datum.Alike
import RecordStore.Proofs.Json.Canonical
import RecordStore.Proofs.Datum.Canonical
import RecordStore.Proofs.Storage.Naming
import RecordStore.Proofs.Predicate.Limit
import RecordStore.Proofs.Calendar.Instants
import RecordStore.Proofs.Document.Timestamps
import RecordStore.Proofs.ColumnType
import RecordStore.Proofs.Model.Columns
import RecordStore.Proofs.ColumnType.Members
import RecordStore.Proofs.Document.Failures
import RecordStore.Proofs.Document.Clients
import RecordStore.Proofs.Model.Paths
