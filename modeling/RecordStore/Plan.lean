import RecordStore.Codec
import RecordStore.Filter.Translation
import RecordStore.Ordering
import RecordStore.Stream

/-!
# Running record queries

A record query is run in one of two ways. If it names identifiers, the records are looked up by
their keys at once and then filtered, sorted and cut in memory. Otherwise its predicate and ordering
become a native query that is streamed page by page. A `Reading` decodes the records one at a time,
and does nothing before the first one is asked for.
-/

namespace RecordStore

/-- How queries are run. -/
structure ReadConfig where
  pageSize : Nat
  /-- Whether the predicate of active records stands in for an empty one. -/
  applyActiveFilter : Bool
  pageSize_pos : 0 < pageSize

namespace ReadConfig

/-- Pages of the usual size, and only active records unless a query says otherwise. -/
def default : ReadConfig := ⟨Stream.defaultPageSize, true, by decide⟩

/-- The ways of running queries with pages of a size, which must be positive. -/
def make (pageSize : Int) (applyActiveFilter : Bool) : Except Error ReadConfig :=
  if h : pageSize ≤ 0 then .error (.badValue .pageSize)
  else .ok ⟨pageSize.toNat, applyActiveFilter, by omega⟩

end ReadConfig

/-- What is needed to read records of one type. -/
structure Reader (α : Type) where
  codec : Codec α
  registry : Registry
  layout : Layout
  config : ReadConfig

/-- The ways to run a query. -/
inductive Strategy
  | lookupByIds
  | lookupByQuery
  deriving DecidableEq

namespace Strategy

/-- The name of a way to run a query. -/
def name : Strategy → String
  | .lookupByIds => "LookupByIds"
  | .lookupByQuery => "LookupByQuery"

end Strategy

/-- A query with the predicate that it will be run with. -/
structure PreparedQuery where
  query : RecordQuery
  predicate : Predicate

namespace PreparedQuery

/-- A query that names identifiers looks them up, whatever else it asks for. -/
def strategy (p : PreparedQuery) : Strategy :=
  if p.query.hasIds then .lookupByIds else .lookupByQuery

end PreparedQuery

/-- Stored records on their way to a reader. -/
inductive Scan
  | listed (rest : List Record)
  | streamed (stream : Stream)

variable {σ α : Type}

namespace Scan

/-- The next stored record, if one is left. -/
def next? (b : Backend σ) (scan : Scan) (w : σ) : Except Error (Option Record) × Scan × σ :=
  match scan with
  | .listed [] => (.ok none, .listed [], w)
  | .listed (r :: rest) => (.ok (some r), .listed rest, w)
  | .streamed s =>
    match s.next? b w with
    | (answer, s, w) => (answer, .streamed s, w)

/-- The stored records that are left, at most `fuel` of them. -/
def drain (b : Backend σ) : Nat → Scan → σ → Except Error (List Record) × Scan × σ
  | 0, scan, w => (.ok [], scan, w)
  | fuel + 1, scan, w =>
    match next? b scan w with
    | (.ok none, scan, w) => (.ok [], scan, w)
    | (.error e, scan, w) => (.error e, scan, w)
    | (.ok (some r), scan, w) =>
      match drain b fuel scan w with
      | (.ok rest, scan, w) => (.ok (r :: rest), scan, w)
      | (.error e, scan, w) => (.error e, scan, w)

/-- The stream that the records come from, if there is one. -/
def stream? : Scan → Option Stream
  | .listed _ => none
  | .streamed s => some s

end Scan

/-- The records that a matcher accepts, in order. -/
def Matcher.select (m : Matcher) : List Record → Except Error (List Record)
  | [] => .ok []
  | r :: rest => do
    let (answer, m) := m.test (some r)
    let accepted ← answer
    let others ← select m rest
    return if accepted then r :: others else others

namespace Reader

/-- A query with the predicate of active records in place of an empty one. -/
def prepare (reader : Reader α) (query : RecordQuery) : PreparedQuery :=
  -- A codec without lifecycle has no such predicate, and the empty one stays.
  let active := if query.predicate.isEmpty && reader.config.applyActiveFilter then
    reader.codec.activeFilter else none
  ⟨query, active.getD query.predicate⟩

/-- The conversion of the values of conditions. -/
def conversion (reader : Reader α) : Conversion := ⟨reader.registry, some reader.layout⟩

/-- The largest limit at which a list of records can be cut. -/
def maxLimit : Nat := 9223372036854775807

/-- The first records of a list, as many as a limit allows. -/
def truncate (limit : Option Nat) (records : List Record) : Except Error (List Record) :=
  match limit with
  | none => .ok records
  -- A limit that no list can reach is refused, although it would leave nothing out.
  | some n => if n ≤ maxLimit then .ok (records.take n) else .error (.badValue .limitTooLarge)

/-- The looked up records that a query selects, in its order. -/
def selectSlots (reader : Reader α) (p : PreparedQuery) (slots : List (Option Record)) :
    Except Error (List Record) := do
  let matcher ← Matcher.prepare p.predicate reader.conversion
  let records := slots.filterMap id
  let found ← if p.predicate.isEmpty then pure records else matcher.select records
  truncate p.query.effectiveLimit (Record.sortBy p.query.orderBy found)

/-- Looks the records of a query up by its identifiers. -/
def fetchByIds (reader : Reader α) (b : Backend σ) (p : PreparedQuery) (w : σ) :
    Outcome σ (List Record) :=
  match p.query.ids.mapM reader.layout.keyOf with
  | .error e => (.error e, w)
  | .ok keys =>
    match b.lookup keys w with
    | (.error e, w) => (.error e, w)
    | (.ok slots, w) => (reader.selectSlots p slots, w)

/-- The native query of a record query. -/
def nativeQuery (reader : Reader α) (p : PreparedQuery) : Except Error NativeQuery :=
  NativeQuery.ofPredicate reader.registry reader.layout p.predicate p.query.orderBy
    (p.query.effectiveLimit.map Int.ofNat)

/-- Opens a stream over the native query; one that nothing matches makes no request. -/
def fetchByQuery (reader : Reader α) (b : Backend σ) (p : PreparedQuery) (w : σ) :
    Outcome σ Scan :=
  match reader.nativeQuery p with
  | .error e => (.error e, w)
  | .ok native =>
    -- The answer is known, so the backend is not asked.
    if native.matchesNothing then (.ok (.listed []), w)
    else
      match Stream.open? b native reader.config.pageSize w with
      | (.ok s, w) => (.ok (.streamed s), w)
      | (.error e, w) => (.error e, w)

/-- The stored records of a query, filtered, sorted and limited. -/
def fetch (reader : Reader α) (b : Backend σ) (p : PreparedQuery) (w : σ) : Outcome σ Scan :=
  match p.strategy with
  | .lookupByIds =>
    match reader.fetchByIds b p w with
    | (.ok records, w) => (.ok (.listed records), w)
    | (.error e, w) => (.error e, w)
  | .lookupByQuery => reader.fetchByQuery b p w

end Reader

/-- A run of a query: not begun, under way, or over. A failure ends it. -/
inductive Reading
  | unopened (query : PreparedQuery)
  | opened (mask : FieldMask) (scan : Scan)
  | finished

namespace Reading

/-- Goes on with a run that has been begun. -/
def advance (reader : Reader α) (b : Backend σ) (mask : FieldMask) (scan : Scan) (w : σ) :
    Except Error (Option α) × Reading × σ :=
  match scan.next? b w with
  | (.error e, _, w) => (.error e, .finished, w)
  | (.ok none, _, w) => (.ok none, .finished, w)
  | (.ok (some r), scan, w) =>
    match reader.codec.decode r with
    | .error e => (.error e, .finished, w)
    | .ok a => (.ok (some (reader.codec.mask mask a)), .opened mask scan, w)

/-- The next decoded record, if one is left. -/
def next? (reader : Reader α) (b : Backend σ) (reading : Reading) (w : σ) :
    Except Error (Option α) × Reading × σ :=
  match reading with
  | .finished => (.ok none, .finished, w)
  | .opened mask scan => advance reader b mask scan w
  | .unopened p =>
    match reader.fetch b p w with
    | (.error e, w) => (.error e, .finished, w)
    | (.ok scan, w) => advance reader b p.query.mask scan w

/-- The records that are left, at most `count` of them, and the failure that ended the run. -/
def take (reader : Reader α) (b : Backend σ) :
    Nat → Reading → σ → (List α × Option Error) × Reading × σ
  | 0, reading, w => (([], none), reading, w)
  | count + 1, reading, w =>
    match next? reader b reading w with
    | (.error e, reading, w) => (([], some e), reading, w)
    | (.ok none, reading, w) => (([], none), reading, w)
    | (.ok (some a), reading, w) =>
      match take reader b count reading w with
      | ((rest, failure), reading, w) => ((a :: rest, failure), reading, w)

end Reading

end RecordStore
