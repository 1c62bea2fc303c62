import RecordStore.Backend

/-!
# Streams of records

A `Stream` hands out the records of a paged query one by one. It requests the first page when it is
opened and each further page when the one before is used up, going on from the cursor of that page.
It ends with an empty page, a page without cursor, a page that reports no more, or when the limit of
the query is reached; from then on it makes no request.
-/

namespace RecordStore

/-- Where a stream stands: before a page, in one, or at its end. -/
inductive StreamState
  | fetching
  | hasPage
  | exhausted
  deriving DecidableEq

namespace StreamState

/-- The name of a state. -/
def name : StreamState → String
  | .fetching => "fetching"
  | .hasPage => "has_page"
  | .exhausted => "exhausted"

end StreamState

/-- A stream over a paged query. -/
structure Stream where
  query : NativeQuery
  /-- The number of records requested at a time. -/
  pageSize : Nat
  /-- How many more records may be requested, if there is a limit. -/
  remaining : Option Nat
  state : StreamState := .fetching
  /-- The records of the current page that have not been handed out. -/
  pending : List Record := []
  cursor : Option String := none
  more : Bool := false
  roundTrips : Nat := 0

namespace Stream

/-- The number of records requested at a time, unless a caller says otherwise. -/
def defaultPageSize : Nat := 100

/-- A stream before its first request. -/
def init (query : NativeQuery) (pageSize : Nat) : Stream :=
  { query, pageSize, remaining := query.effectiveLimit }

/-- Whether a stream has come to its end. -/
def isExhausted (s : Stream) : Bool := s.state = .exhausted

/-- The number of records that the next request asks for. -/
def requestSize (s : Stream) : Nat :=
  match s.remaining with
  | none => s.pageSize
  | some n => min s.pageSize n

/-- Whether another page may be requested. -/
def canContinue (s : Stream) : Bool := s.remaining ≠ some 0 && s.more && s.cursor.isSome

/-- The stream after its end. -/
def exhaust (s : Stream) : Stream :=
  { s with state := .exhausted, pending := [], cursor := none }

/-- The stream after a page has arrived. Records beyond the requested number are dropped. -/
def accept (s : Stream) (page : Page) : Stream :=
  -- A backend may send more than it was asked for.
  let records := page.records.take s.requestSize
  let next := { s with
    remaining := s.remaining.map (· - records.length)
    pending := records
    cursor := page.cursor
    more := page.more
    roundTrips := s.roundTrips + 1 }
  if records.isEmpty then next.exhaust else { next with state := .hasPage }

variable {σ : Type}

/-- Requests a page from a cursor on. A request that fails leaves the stream ready to repeat it. -/
def fetch (b : Backend σ) (s : Stream) (cursor : Option String) (w : σ) :
    Except Error Unit × Stream × σ :=
  match b.runQuery s.query s.requestSize cursor w with
  | (.ok page, w) => (.ok (), s.accept page, w)
  | (.error e, w) => (.error e, { s with state := .fetching }, w)

/-- Opens a stream and requests its first page. -/
def open? (b : Backend σ) (query : NativeQuery) (pageSize : Int) (w : σ) : Outcome σ Stream :=
  if pageSize ≤ 0 then (.error (.badValue .pageSize), w)
  else
    match fetch b (init query pageSize.toNat) none w with
    | (.ok (), s, w) => (.ok s, w)
    | (.error e, _, w) => (.error e, w)

/-- Whether a record is left; requests the next page if the current one is used up. -/
def hasNext (b : Backend σ) (s : Stream) (w : σ) : Except Error Bool × Stream × σ :=
  if s.isExhausted then (.ok false, s, w)
  else if !s.pending.isEmpty then (.ok true, s, w)
  else if !s.canContinue then (.ok false, s.exhaust, w)
  else
    match fetch b s s.cursor w with
    | (.ok (), s, w) => (.ok (s.state = .hasPage), s, w)
    | (.error e, s, w) => (.error e, s, w)

/-- The next record, if one is left. -/
def next? (b : Backend σ) (s : Stream) (w : σ) : Except Error (Option Record) × Stream × σ :=
  match hasNext b s w with
  | (.ok true, s, w) =>
    match s.pending with
    | [] => (.ok none, s, w)
    | r :: rest => (.ok (some r), { s with pending := rest }, w)
  | (.ok false, s, w) => (.ok none, s, w)
  | (.error e, s, w) => (.error e, s, w)

/-- The next record; it is an error if none is left. -/
def next (b : Backend σ) (s : Stream) (w : σ) : Except Error Record × Stream × σ :=
  match next? b s w with
  | (.ok (some r), s, w) => (.ok r, s, w)
  | (.ok none, s, w) => (.error .exhausted, s, w)
  | (.error e, s, w) => (.error e, s, w)

/-- The records that are left, at most `fuel` of them. A backend that says of itself that nothing is
left ends them as well. -/
def drain (b : Backend σ) : Nat → Stream → σ → Except Error (List Record) × Stream × σ
  | 0, s, w => (.ok [], s, w)
  | fuel + 1, s, w =>
    match next? b s w with
    | (.ok none, s, w) => (.ok [], s, w)
    | (.error e, s, w) => if e.endsIteration then (.ok [], s, w) else (.error e, s, w)
    | (.ok (some r), s, w) =>
      match drain b fuel s w with
      | (.ok rest, s, w) => (.ok (r :: rest), s, w)
      | (.error e, s, w) => (.error e, s, w)

end Stream

end RecordStore
