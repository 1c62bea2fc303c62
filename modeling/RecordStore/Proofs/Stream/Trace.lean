import RecordStore.Proofs.Stream.Step

/-!
# Traces of a stream

What happens while a consumer uses a stream over any backend: the exchanges that the backend sees
and the replies that the consumer gets, in the order in which they happen. The exchanges are those
noted by a backend that records its requests (`Backend.recording`); recording changes no reply
(`hasNext_recording`, `next_recording`), and a call makes at most one exchange.
-/

namespace RecordStore

/-- A request for a page, and the answer to it. -/
structure Exchange where
  query : NativeQuery
  size : Int
  cursor : Option String
  answer : Except Error Page

/-- The page that answered a request, if it did not fail. -/
def Exchange.page? (e : Exchange) : Option Page := e.answer.toOption

variable {σ : Type}

/-- The backend that also records the exchanges about pages. -/
def Backend.recording (b : Backend σ) : Backend (σ × List Exchange) where
  lookup keys s := match b.lookup keys s.1 with
    | (answer, w) => (answer, (w, s.2))
  runQuery q size cursor s := match b.runQuery q size cursor s.1 with
    | (answer, w) => (answer, (w, s.2 ++ [⟨q, size, cursor, answer⟩]))
  put records s := match b.put records s.1 with
    | (answer, w) => (answer, (w, s.2))
  delete keys s := match b.delete keys s.1 with
    | (answer, w) => (answer, (w, s.2))

/-- A recorded request gets the answer that it gets without, and is noted with it. -/
theorem Backend.recording_runQuery {b : Backend σ} {q : NativeQuery} {size : Int}
    {cursor : Option String} {w w' : σ} {answer : Except Error Page}
    (h : b.runQuery q size cursor w = (answer, w')) (log : List Exchange) :
    b.recording.runQuery q size cursor (w, log) =
      (answer, (w', log ++ [⟨q, size, cursor, answer⟩])) := by
  simp only [recording, h]

namespace Stream

/-- What a consumer may ask of a stream. -/
inductive Call
  | hasNext
  | next
  deriving DecidableEq

/-- What a consumer is told. -/
inductive Reply
  | announced (answer : Except Error Bool)
  | handed (answer : Except Error Record)

/-- One call of a stream. -/
def call (b : Backend σ) (c : Call) (s : Stream) (w : σ) : Reply × Stream × σ :=
  match c with
  | .hasNext => match hasNext b s w with
    | (answer, s, w) => (.announced answer, s, w)
  | .next => match next b s w with
    | (answer, s, w) => (.handed answer, s, w)

/-- What happens between a consumer, a stream and a backend. -/
inductive Event
  | exchange (e : Exchange)
  | reply (r : Reply)

/-- The page of an exchange that did not fail. -/
def Event.page? : Event → Option Page
  | .exchange e => e.page?
  | .reply _ => none

/-- The record that a reply hands out. -/
def Event.record? : Event → Option Record
  | .reply (.handed answer) => answer.toOption
  | _ => none

/-- An exchange itself. -/
def Event.exchange? : Event → Option Exchange
  | .exchange e => some e
  | .reply _ => none

/-- The failure that answered a request. -/
def Event.failure? : Event → Option Error
  | .exchange ⟨_, _, _, .error e⟩ => some e
  | _ => none

/-- The requests with their answers, in order. -/
def requests (events : List Event) : List Exchange := events.filterMap Event.exchange?

/-- The failures that answered requests, in order. -/
def failures (events : List Event) : List Error := events.filterMap Event.failure?

/-- The pages that answered requests, in order. -/
def pages (events : List Event) : List Page := events.filterMap Event.page?

/-- The records that were handed out, in order. -/
def handedOut (events : List Event) : List Record := events.filterMap Event.record?

@[simp]
theorem pages_append (past rest : List Event) : pages (past ++ rest) = pages past ++ pages rest :=
  List.filterMap_append

@[simp]
theorem handedOut_append (past rest : List Event) :
    handedOut (past ++ rest) = handedOut past ++ handedOut rest :=
  List.filterMap_append

theorem pages_cons (event : Event) (rest : List Event) :
    pages (event :: rest) = pages [event] ++ pages rest :=
  pages_append [event] rest

theorem handedOut_cons (event : Event) (rest : List Event) :
    handedOut (event :: rest) = handedOut [event] ++ handedOut rest :=
  handedOut_append [event] rest

/-- A request is answered by a page or by a failure. -/
theorem length_requests (events : List Event) :
    (requests events).length = (pages events).length + (failures events).length := by
  induction events with
  | nil => rfl
  | cons event rest ih =>
    rw [requests, pages, failures] at ih ⊢
    rcases event with ⟨_, _, _, _ | page⟩ | reply
    · simp only [List.filterMap_cons, Event.exchange?, Event.page?, Event.failure?, Exchange.page?,
        Except.toOption, List.length_cons, ih]
      omega
    · simp only [List.filterMap_cons, Event.exchange?, Event.page?, Event.failure?, Exchange.page?,
        Except.toOption, List.length_cons, ih]
      omega
    · exact ih

/-- A use of a stream: what happened, and the stream and the backend's state at the end. -/
structure Run (σ : Type) where
  events : List Event
  stream : Stream
  world : σ

/-- The run of some calls, one after the other; a call that fails does not end it. The exchanges of
a call are those that the backend records, and stand before its reply. -/
def run (b : Backend σ) : List Call → Stream → σ → Run σ
  | [], s, w => ⟨[], s, w⟩
  | c :: rest, s, w =>
    match call b c s w with
    | (reply, next, w') =>
      let exchanges := (call b.recording c s (w, [])).2.2.2
      let others := run b rest next w'
      { others with events := exchanges.map .exchange ++ .reply reply :: others.events }

/-- A whole use of a stream, from its opening on. It fails if the first request does. -/
def session (b : Backend σ) (q : NativeQuery) (pageSize : Int) (calls : List Call) (w : σ) :
    Except Error (Run σ) :=
  match open? b.recording q pageSize (w, []) with
  | (.error e, _) => .error e
  | (.ok s, w, exchanges) =>
    let calls := run b calls s w
    .ok { calls with events := exchanges.map .exchange ++ calls.events }

/-- The exchange that the next call makes, if it makes one. -/
def exchanges (b : Backend σ) (s : Stream) (w : σ) : List Exchange :=
  if s.asks then
    [⟨s.query, s.requestSize, s.cursor, (b.runQuery s.query s.requestSize s.cursor w).1⟩]
  else []

/-- A stream that asks exchanges one request for its answer. -/
theorem exchanges_of_asks {b : Backend σ} {s : Stream} {w w' : σ} {answer : Except Error Page}
    (hasks : s.asks = true)
    (hrun : b.runQuery s.query s.requestSize s.cursor w = (answer, w')) :
    s.exchanges b w = [⟨s.query, s.requestSize, s.cursor, answer⟩] := by
  rw [exchanges, if_pos hasks, hrun]

/-- A stream that does not ask exchanges nothing. -/
theorem exchanges_of_not_asks {s : Stream} (b : Backend σ) (w : σ) (hasks : ¬s.asks = true) :
    s.exchanges b w = [] :=
  if_neg hasks

/-- Recording adds the exchange of a call to the log, and changes nothing else. -/
theorem hasNext_recording (b : Backend σ) (s : Stream) (w : σ) (log : List Exchange) :
    hasNext b.recording s (w, log) =
      match hasNext b s w with
      | (answer, s', w') => (answer, s', (w', log ++ s.exchanges b w)) := by
  rw [hasNext, hasNext, exchanges, asks]
  by_cases hover : s.isExhausted = true
  · simp [hover]
  by_cases hheld : s.pending.isEmpty = true
  · by_cases hcontinue : s.canContinue = true
    · rcases hrun : b.runQuery s.query s.requestSize s.cursor w with ⟨answer, w'⟩
      simp only [hover, hheld, hcontinue, fetch, Backend.recording_runQuery hrun log, hrun]
      cases answer with
      | error e => rfl
      | ok page => rfl
    · simp [hover, hheld, hcontinue]
  · simp [hover, hheld]

/-- A record of the exchanges changes no call of `next`, and gains those of the call. -/
theorem next_recording (b : Backend σ) (s : Stream) (w : σ) (log : List Exchange) :
    next b.recording s (w, log) =
      match next b s w with
      | (answer, s', w') => (answer, s', (w', log ++ s.exchanges b w)) := by
  have hrecording := hasNext_recording b s w log
  rcases h : hasNext b s w with ⟨e | _ | _, s', w'⟩
  all_goals simp only [h] at hrecording
  · rw [next_of_hasNext_error h, next_of_hasNext_error hrecording]
  · rw [next_of_hasNext_false h, next_of_hasNext_false hrecording]
  · obtain ⟨r, rest, hpending, hnext⟩ := next_of_hasNext_true h
    obtain ⟨r', rest', hpending', hnext'⟩ := next_of_hasNext_true hrecording
    -- Both streams hold the same page, and so hand out the same record.
    obtain ⟨rfl, rfl⟩ := List.cons.inj (hpending.symm.trans hpending')
    rw [hnext, hnext']

/-- The run of a call and further ones. -/
theorem run_cons (b : Backend σ) (c : Call) (rest : List Call) (s : Stream) (w : σ) :
    run b (c :: rest) s w =
      match call b c s w with
      | (reply, next, w') =>
        { run b rest next w' with
          events := (s.exchanges b w).map .exchange ++
            .reply reply :: (run b rest next w').events } := by
  have hexchanges : (call b.recording c s (w, [])).2.2.2 = s.exchanges b w := by
    cases c with
    | hasNext => simp only [call, hasNext_recording, List.nil_append]
    | next => simp only [call, next_recording, List.nil_append]
  rw [run, hexchanges]

end Stream

end RecordStore
