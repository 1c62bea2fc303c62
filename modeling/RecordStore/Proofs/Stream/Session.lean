import RecordStore.Proofs.Stream.Accounting
import RecordStore.Script

/-!
# Sessions

What a consumer may rely on while it uses a stream, whatever the backend answers and in whatever
order the calls come (`session_sound`): the records that are handed out are those that the pages
deliver, no request is made before it is due, asking twice is harmless, the limit holds, and the end
is final.
-/

namespace RecordStore.Stream

variable {σ : Type} {b : Backend σ} {s : Stream}

/-! ## Opening -/

/-- The first request of a stream. -/
def opening (q : NativeQuery) (pageSize : Int) (answer : Except Error Page) : Exchange :=
  ⟨q, (init q pageSize.toNat).requestSize, none, answer⟩

/-- A session begins with the first request and goes on with the calls. -/
theorem session_of_answered {q : NativeQuery} {pageSize : Int} (hsize : 0 < pageSize)
    {page : Page} {w w' : σ}
    (hrun : b.runQuery q (init q pageSize.toNat).requestSize none w = (.ok page, w'))
    (calls : List Call) :
    session b q pageSize calls w =
      let rest := run b calls ((init q pageSize.toNat).accept page) w'
      .ok { rest with events := .exchange (opening q pageSize (.ok page)) :: rest.events } := by
  have hrecorded := Backend.recording_runQuery hrun []
  have hopened : open? b.recording q pageSize (w, []) =
      (.ok ((init q pageSize.toNat).accept page), w', [opening q pageSize (.ok page)]) := by
    rw [open?, if_neg (by omega), fetch]
    simp only [show (init q pageSize.toNat).query = q from rfl, hrecorded]
    rfl
  rw [session, hopened]
  rfl

/-- A session does not begin if the first request fails. -/
theorem session_of_refused {q : NativeQuery} {pageSize : Int} (hsize : 0 < pageSize)
    {e : Error} {w w' : σ}
    (hrun : b.runQuery q (init q pageSize.toNat).requestSize none w = (.error e, w'))
    (calls : List Call) : session b q pageSize calls w = .error e := by
  have hrecorded := Backend.recording_runQuery hrun []
  rw [session, open?, if_neg (by omega), fetch]
  simp only [show (init q pageSize.toNat).query = q from rfl, hrecorded]

/-- A stream is tracked from its first page on. -/
theorem tracks_opened {q : NativeQuery} {size : Nat} (hsize : 0 < size) {page : Page} :
    Tracks q size [.exchange ⟨q, (init q size).requestSize, none, .ok page⟩]
      ((init q size).accept page) := by
  -- Before the first request, when nothing has happened, the books are in order.
  have haccounts : Accounts q size [] (init q size) := {
    query := rfl
    pageSize := rfl
    remaining := by
      cases hlimit : q.effectiveLimit with
      | none => exact hlimit
      | some n => exact hlimit
    handed := rfl
    allDue := AllDue.nil
    paid := fun _ => Nat.zero_le _
    counted := fun n _ => Nat.zero_le n }
  exact Tracks.accepted haccounts hsize (haccounts.due rfl rfl rfl _) rfl

/-- A session keeps its stream tracked. -/
theorem tracks_session {q : NativeQuery} {pageSize : Int} (hsize : 0 < pageSize)
    {calls : List Call} {w : σ} {r : Run σ} (h : session b q pageSize calls w = .ok r) :
    Tracks q pageSize.toNat r.events r.stream := by
  have hpositive : 0 < pageSize.toNat := by omega
  rcases hrun : b.runQuery q (init q pageSize.toNat).requestSize none w with ⟨e | page, w₁⟩
  · rw [session_of_refused hsize hrun] at h
    cases h
  · rw [session_of_answered hsize hrun] at h
    cases h
    exact (tracks_opened hpositive).run hpositive b calls w₁

/-! ## Asking again -/

/-- After an answer, every call does what it would have done before. -/
theorem call_again {answer : Bool} {s' : Stream} {w w' : σ}
    (h : hasNext b s w = (.ok answer, s', w')) (c : Call) : call b c s' w' = call b c s w := by
  have hagain := hasNext_again h
  cases c with
  | hasNext => rw [call, call, h, hagain]
  | next => rw [call, call, next, next, next?, next?, h, hagain]

/-- An exchange hands nothing out. -/
theorem handedOut_exchanges (exchanges : List Exchange) :
    handedOut (exchanges.map .exchange) = [] := by
  simp [handedOut, Event.record?]

/-- What is handed out after an answer is what would have been handed out without asking. -/
theorem handedOut_run_again {answer : Bool} {s' : Stream} {w w' : σ}
    (h : hasNext b s w = (.ok answer, s', w')) (calls : List Call) :
    handedOut (run b calls s' w').events = handedOut (run b calls s w).events := by
  cases calls with
  | nil => rfl
  | cons c rest =>
    rw [run_cons, run_cons, call_again h]
    simp only [handedOut_append, handedOut_exchanges]

/-- The request of a question that fails is among its exchanges. -/
theorem failures_of_hasNext_error {e : Error} {s' : Stream} {w w' : σ}
    (h : hasNext b s w = (.error e, s', w')) :
    failures ((s.exchanges b w).map .exchange) = [e] := by
  obtain ⟨hasks, hrun⟩ := refused_of_hasNext_error h
  rw [exchanges_of_asks hasks hrun]
  rfl

/-- Unless a request fails, the records that are handed out do not depend on the questions asked in
between. -/
theorem handedOut_run_filter (calls : List Call) {w : σ}
    (h : failures (run b calls s w).events = []) :
    handedOut (run b (calls.filter (· = .next)) s w).events =
      handedOut (run b calls s w).events := by
  induction calls generalizing s w with
  | nil => rfl
  | cons c rest ih =>
    rw [run_cons] at h
    rcases hcalled : call b c s w with ⟨reply, s', w'⟩
    simp only [hcalled, failures, List.filterMap_append, List.append_eq_nil_iff] at h
    have hrest := ih h.2
    cases c with
    | next =>
      rw [List.filter_cons_of_pos (by rfl), run_cons, run_cons, hcalled]
      simp only [handedOut_append, handedOut_exchanges, List.nil_append]
      rw [handedOut_cons, hrest, ← handedOut_cons]
    | hasNext =>
      rw [List.filter_cons_of_neg (by decide), run_cons, hcalled]
      rcases hasked : hasNext b s w with ⟨e | answer, s₁, w₁⟩
      · -- the request of a failing question is among those of the run
        have hfailed := failures_of_hasNext_error hasked
        rw [failures, h.1] at hfailed
        cases hfailed
      · rw [call, hasked] at hcalled
        cases hcalled
        -- The run goes on as if the question had not been asked.
        rw [← handedOut_run_again hasked, hrest]
        simp only [handedOut_append, handedOut_exchanges, List.nil_append]
        rfl

/-! ## The end -/

/-- What a stream says that is over. -/
def Reply.atEnd : Call → Reply
  | .hasNext => .announced (.ok false)
  | .next => .handed (.error .exhausted)

/-- A stream that is over answers every call at once, and stays as it is. -/
theorem run_of_exhausted (b : Backend σ) (hstate : s.state = .exhausted) (calls : List Call)
    (w : σ) : run b calls s w = ⟨calls.map fun c => .reply (Reply.atEnd c), s, w⟩ := by
  induction calls with
  | nil => rfl
  | cons c rest ih =>
    have hasked := hasNext_of_exhausted b hstate w
    have hcalled : call b c s w = (Reply.atEnd c, s, w) := by
      cases c with
      | hasNext => rw [call, hasked]; rfl
      | next => rw [call, next_of_hasNext_false hasked]; rfl
    rw [run_cons, hcalled, exchanges_of_not_asks b w (by simp [asks_eq_true_iff, hstate])]
    simp only [ih]
    rfl

/-! ## Sessions -/

/-- A stream over any backend, used in any way: either the first request fails and nothing else
happens, or the following hold. The records that are handed out are, in order, the first ones that
the pages deliver. Every request is made when all records delivered so far have been handed out,
goes on from the cursor of the last page, and asks for what the limit allows. A record is announced
exactly if the next call hands one out; where none is announced the stream is over, and a question
fails only if a request does. If no request fails, the records are the same without any question in
between. A limit bounds the records and, but for those that failed, the requests. And once the
stream is over, everything has been handed out, the pages have ended, and further calls change
nothing. -/
theorem session_sound (b : Backend σ) (q : NativeQuery) {pageSize : Int} (hsize : 0 < pageSize)
    (calls : List Call) (w : σ) :
    (∃ e, session b q pageSize calls w = .error e ∧
      (b.runQuery q (init q pageSize.toNat).requestSize none w).1 = .error e) ∨
    ∃ r, session b q pageSize calls w = .ok r ∧
      handedOut r.events <+: (delivered q pageSize.toNat r.events).records ∧
      AllDue q pageSize.toNat r.events ∧
      ((hasNext b r.stream r.world).1 = .ok true ↔
        ∃ record, (next b r.stream r.world).1 = .ok record) ∧
      (∀ s w', hasNext b r.stream r.world = (.ok false, s, w') → s.state = .exhausted) ∧
      (∀ e s w', hasNext b r.stream r.world = (.error e, s, w') →
        ∃ size cursor, b.runQuery q size cursor r.world = (.error e, w')) ∧
      (failures r.events = [] →
        ∃ r', session b q pageSize (calls.filter (· = .next)) w = .ok r' ∧
          handedOut r'.events = handedOut r.events) ∧
      (∀ n, q.effectiveLimit = some n →
        (handedOut r.events).length ≤ n ∧
          (requests r.events).length ≤ n + (failures r.events).length) ∧
      (r.stream.state = .exhausted →
        handedOut r.events = (delivered q pageSize.toNat r.events).records ∧
          (delivered q pageSize.toNat r.events).ended = true ∧
          ∀ more, run b more r.stream r.world =
            ⟨more.map fun c => .reply (Reply.atEnd c), r.stream, r.world⟩) := by
  rcases hrun : b.runQuery q (init q pageSize.toNat).requestSize none w with ⟨e | page, w₁⟩
  · exact .inl ⟨e, session_of_refused hsize hrun calls, rfl⟩
  have hsession := session_of_answered hsize hrun calls
  have htracks := tracks_session hsize hsession
  refine .inr ⟨_, hsession, ?_⟩
  -- Only the invariant is needed from here on, not how the run came about.
  generalize hr : ({ run b calls ((init q pageSize.toNat).accept page) w₁ with
    events := .exchange (opening q pageSize (.ok page)) ::
      (run b calls ((init q pageSize.toNat).accept page) w₁).events } : Run σ) = r at htracks ⊢
  have hserved : handedOut r.events <+: (delivered q pageSize.toNat r.events).records :=
    ⟨r.stream.pending, htracks.handed⟩
  have hrefused : ∀ e s w', hasNext b r.stream r.world = (.error e, s, w') →
      ∃ size cursor, b.runQuery q size cursor r.world = (.error e, w') := by
    intro e s w' hasked
    have hquery := (refused_of_hasNext_error hasked).2
    rw [htracks.query] at hquery
    exact ⟨_, _, hquery⟩
  refine ⟨hserved, htracks.allDue, hasNext_eq_true_iff,
    fun s w' hasked => exhausted_of_hasNext_false hasked, hrefused, ?_, ?_, ?_⟩
  · intro hfailures
    refine ⟨_, session_of_answered hsize hrun _, ?_⟩
    subst hr
    rw [handedOut_cons, handedOut_run_filter calls hfailures, ← handedOut_cons]
  · intro n hn
    have hbounded := (within_delivered q pageSize.toNat r.events).bounded n hn
    have hcounted := htracks.counted n hn
    have hrequests := length_requests r.events
    have hhanded := hserved.length_le
    omega
  · intro hstate
    obtain ⟨hended, hpending⟩ := htracks.finished hstate
    have hall := htracks.handed
    rw [hpending, List.append_nil] at hall
    exact ⟨hall, hended, fun more => run_of_exhausted b hstate more r.world⟩

/-- A backend that sends too many records, then fails, and then reports more beyond the limit. -/
theorem session_sound_of_script :
    let r : Record := ⟨⟨⟨.string "Row", .string "r", rfl, rfl⟩, []⟩, [], []⟩
    let q : NativeQuery := { kind := "Row", limit := some 3 }
    let script : Script :=
      [.ok ⟨[r, r, r], some "a", true⟩, .error .exhausted, .ok ⟨[r], some "b", true⟩]
    ∃ use, session Script.backend q 2 [.next, .next, .hasNext, .next, .next] script = .ok use ∧
      use.stream.state = .exhausted ∧
      handedOut use.events = (delivered q 2 use.events).records ∧
      (requests use.events).length ≤ 3 + (failures use.events).length := by
  intro r q script
  have hsession : session Script.backend q 2 [.next, .next, .hasNext, .next, .next] script =
      .ok ⟨_, _, _⟩ := rfl
  rcases session_sound Script.backend q (by decide : (0 : Int) < 2)
    [.next, .next, .hasNext, .next, .next] script with
    ⟨e, h, -⟩ | ⟨use, h, -, -, -, -, -, -, hlimit, hend⟩
  · rw [hsession] at h
    cases h
  · rw [hsession] at h
    cases h
    exact ⟨_, hsession, rfl, (hend rfl).1, (hlimit 3 rfl).2⟩

end RecordStore.Stream
