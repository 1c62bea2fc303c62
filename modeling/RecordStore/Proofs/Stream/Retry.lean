import Mathlib.Algebra.GroupWithZero.Nat
import RecordStore.Proofs.Stream.Session

/-!
# Failed requests

A request that fails loses nothing. It leaves the stream as it was, so that the next call repeats
it (`resumable_of_failed`, for any backend). Over a backend that answers from a script, the pages of
a run that has come to its end are the first pages of the script, up to the one that ends the stream
(`pages_eq_of_ended`); what is handed out and which requests succeed depends on these pages alone.
So failures among the answers change neither (`session_resumed`).
-/

namespace RecordStore

/-- What is asked for in an exchange. -/
def Exchange.request (e : Exchange) : NativeQuery × Int × Option String :=
  (e.query, e.size, e.cursor)

namespace Script

/-- The answers that are no failures. -/
def answered (script : Script) : Script := script.filter Except.isOk

/-- The pages among the answers. -/
def pages (script : Script) : List Page := script.filterMap Except.toOption

/-- The page at a place among the pages; empty ones follow the last. -/
def page (script : Script) (i : Nat) : Page := script.pages.getD i {}

/-- The failures of a script are no pages. -/
theorem pages_answered (script : Script) : script.answered.pages = script.pages := by
  rw [pages, answered, List.filterMap_filter]
  congr 1
  funext answer
  cases answer <;> rfl

end Script

namespace Stream

variable {σ : Type} {b : Backend σ} {s : Stream} {w : σ}

/-! ## One failed request -/

/-- The error that a call raises. -/
def Reply.error? : Reply → Option Error
  | .announced (.error e) | .handed (.error e) => some e
  | _ => none

/-- How a call raises an error. -/
def Reply.raised : Call → Error → Reply
  | .hasNext, e => .announced (.error e)
  | .next, e => .handed (.error e)

/-- A call makes the exchanges that the stream has due, and gives one reply. -/
theorem run_singleton (b : Backend σ) (c : Call) (s : Stream) (w : σ) :
    run b [c] s w =
      ⟨(s.exchanges b w).map .exchange ++ [.reply (call b c s w).1], (call b c s w).2.1,
        (call b c s w).2.2⟩ := by
  rw [run_cons]
  rfl

/-- The requests of a call are the exchanges that the stream has due. -/
theorem requests_run_singleton (b : Backend σ) (c : Call) (s : Stream) (w : σ) :
    requests (run b [c] s w).events = s.exchanges b w := by
  rw [run_singleton, requests, List.filterMap_append, List.filterMap_map]
  simp [Function.comp_def, Event.exchange?]

/-- The failures of a call are those of its requests. -/
theorem failures_run_singleton (b : Backend σ) (c : Call) (s : Stream) (w : σ) :
    failures (run b [c] s w).events = failures ((s.exchanges b w).map .exchange) := by
  rw [run_singleton, failures, List.filterMap_append]
  exact List.append_nil _

/-- A request fails only if the stream asks and the backend refuses. -/
theorem failures_exchanges (b : Backend σ) (s : Stream) (w : σ) :
    failures ((s.exchanges b w).map .exchange) = [] ∨
      ∃ e w', s.asks = true ∧ b.runQuery s.query s.requestSize s.cursor w = (.error e, w') ∧
        failures ((s.exchanges b w).map .exchange) = [e] := by
  by_cases hasks : s.asks = true
  · rcases hrun : b.runQuery s.query s.requestSize s.cursor w with ⟨e | page, w'⟩
    · exact .inr ⟨e, w', hasks, rfl, by rw [exchanges_of_asks hasks hrun]; rfl⟩
    · exact .inl (by rw [exchanges_of_asks hasks hrun]; rfl)
  · exact .inl (by rw [exchanges_of_not_asks b w hasks]; rfl)

/-- A call raises the error of its request, and leaves the stream as it was but for its state. -/
theorem call_of_refused {e : Error} {w' : σ} (hasks : s.asks = true)
    (hrun : b.runQuery s.query s.requestSize s.cursor w = (.error e, w')) (c : Call) :
    call b c s w = (Reply.raised c e, { s with state := .fetching }, w') := by
  have hasked := hasNext_of_refused hasks hrun
  cases c with
  | hasNext => rw [call, hasked]; rfl
  | next => rw [call, next_of_hasNext_error hasked]; rfl

/-- A call raises an error only if its request fails, or at the end, where `next` makes no
request that fails. -/
theorem failed_or_ended {c : Call} {e : Error} (h : (call b c s w).1.error? = some e) :
    failures (run b [c] s w).events = [e] ∨
      failures (run b [c] s w).events = [] ∧ c = .next ∧ e = .exhausted ∧
        (run b [c] s w).stream.state = .exhausted := by
  rw [failures_run_singleton]
  -- Without a failed request, only the end of the stream is an error.
  rcases failures_exchanges b s w with hnone | ⟨e', w', hasks, hrun, hfailed⟩
  · refine .inr ⟨hnone, ?_⟩
    rw [run_singleton]
    rcases hasked : hasNext b s w with ⟨e' | answer, s₁, w₁⟩
    · rw [failures_of_hasNext_error hasked] at hnone
      cases hnone
    · cases c with
      | hasNext =>
        rw [call, hasked] at h
        cases h
      | next =>
        cases answer with
        | false =>
          rw [call, next_of_hasNext_false hasked] at h ⊢
          cases h
          exact ⟨rfl, rfl, exhausted_of_hasNext_false hasked⟩
        | true =>
          obtain ⟨r, rest, -, hnext⟩ := next_of_hasNext_true hasked
          rw [call, hnext] at h
          cases h
  · refine .inl (hfailed.trans ?_)
    rw [call_of_refused hasks hrun] at h
    cases c <;> cases h <;> rfl

/-- What a call leaves behind from which the stream can go on as if it had not been made: nothing is
handed out, the books and the place in the query are kept, the stream is not over, and every next
call makes the same request. -/
structure Resumable (b : Backend σ) (s : Stream) (after : Run σ) : Prop where
  served : handedOut after.events = []
  pending : after.stream.pending = s.pending
  remaining : after.stream.remaining = s.remaining
  cursor : after.stream.cursor = s.cursor
  roundTrips : after.stream.roundTrips = s.roundTrips
  live : after.stream.state ≠ .exhausted
  again : ∀ c, (requests (run b [c] after.stream after.world).events).map Exchange.request =
    (requests after.events).map Exchange.request

/-- A stream whose request has failed asks for the same again. -/
theorem request_again (b : Backend σ) (hasks : s.asks = true) (w w' : σ) :
    (({ s with state := .fetching } : Stream).exchanges b w').map Exchange.request =
      (s.exchanges b w).map Exchange.request := by
  have hagain : ({ s with state := .fetching } : Stream).asks = true := by
    obtain ⟨-, hpending, hcontinue⟩ := asks_eq_true_iff.mp hasks
    exact asks_eq_true_iff.mpr ⟨by simp, hpending, hcontinue⟩
  rw [exchanges, exchanges, if_pos hasks, if_pos hagain]
  rfl

/-- After a failed request the stream can go on as if the call had not been made. -/
theorem resumable_of_failed {c : Call} (h : failures (run b [c] s w).events ≠ []) :
    Resumable b s (run b [c] s w) := by
  rw [failures_run_singleton] at h
  obtain hnone | ⟨e, w', hasks, hrun, -⟩ := failures_exchanges b s w
  · exact absurd hnone h
  have hcalled := call_of_refused hasks hrun c
  -- The failed request leaves the stream as it was, but for the state.
  have hafter : run b [c] s w =
      ⟨(s.exchanges b w).map .exchange ++ [.reply (Reply.raised c e)],
        { s with state := .fetching }, w'⟩ := by
    rw [run_singleton, hcalled]
  have hagain : ∀ c', (requests (run b [c'] { s with state := .fetching } w').events).map
      Exchange.request = (requests (run b [c] s w).events).map Exchange.request := by
    intro c'
    rw [requests_run_singleton, requests_run_singleton, request_again b hasks w w']
  have hserved : handedOut (run b [c] s w).events = [] := by
    rw [hafter, handedOut_append, handedOut_exchanges]
    cases c <;> rfl
  rw [hafter] at hagain hserved ⊢
  exact {
    served := hserved
    pending := rfl
    remaining := rfl
    cursor := rfl
    roundTrips := rfl
    live := by simp
    again := hagain }

/-! ## The pages that a run takes from a script -/

/-- A call leaves the backend's state as its request does. -/
theorem call_world (b : Backend σ) (c : Call) (s : Stream) (w : σ) :
    (call b c s w).2.2 =
      if s.asks then (b.runQuery s.query s.requestSize s.cursor w).2 else w := by
  -- Looking ahead is all that reaches the backend.
  have hworld : (hasNext b s w).2.2 =
      if s.asks then (b.runQuery s.query s.requestSize s.cursor w).2 else w := by
    have hstep := hasNext_step b s w
    generalize hasNext b s w = outcome at hstep ⊢
    cases hstep with
    | finished hstate => rw [if_neg (by simp [asks_eq_true_iff, hstate])]
    | held _ hpending => rw [if_neg (by simp [asks_eq_true_iff, hpending])]
    | ended _ _ hcontinue => rw [if_neg (by simp [asks_eq_true_iff, hcontinue])]
    | answered hasks _ _ _ hrun => rw [if_pos hasks, hrun]
    | refused hasks _ _ hrun => rw [if_pos hasks, hrun]
  rw [← hworld]
  rcases hasked : hasNext b s w with ⟨e | _ | _, s', w'⟩
  · cases c with
    | hasNext => rw [call, hasked]
    | next => rw [call, next_of_hasNext_error hasked]
  · cases c with
    | hasNext => rw [call, hasked]
    | next => rw [call, next_of_hasNext_false hasked]
  · cases c with
    | hasNext => rw [call, hasked]
    | next =>
      obtain ⟨r, rest, -, hnext⟩ := next_of_hasNext_true hasked
      rw [call, hnext]

/-- The pages of a run are those of its first call and those of the others. -/
theorem pages_run_cons (b : Backend σ) (c : Call) (rest : List Call) (s : Stream) (w : σ) :
    pages (run b (c :: rest) s w).events =
      pages ((s.exchanges b w).map .exchange) ++
        pages (run b rest (call b c s w).2.1 (call b c s w).2.2).events := by
  rw [run_cons, pages_append]
  rfl

/-- The page that the next answer brings, if it brings one, stands before the pages of the
others. -/
theorem first_pages (w : Script) (n : Nat) :
    ∃ m, (Script.runQuery w).1.toOption.toList ++ (List.range n).map (Script.runQuery w).2.page =
      (List.range m).map w.page := by
  match w with
  | [] =>
    refine ⟨n + 1, ?_⟩
    simp only [List.range_succ_eq_map, List.map_cons, List.map_map]
    rfl
  | .ok page :: others =>
    refine ⟨n + 1, ?_⟩
    simp only [List.range_succ_eq_map, List.map_cons, List.map_map]
    rfl
  | .error e :: others => exact ⟨n, rfl⟩

/-- A run takes the first pages of a script, however many failures stand between them. -/
theorem pages_run_script (calls : List Call) (s : Stream) (w : Script) :
    ∃ n, pages (run Script.backend calls s w).events = (List.range n).map w.page := by
  induction calls generalizing s w with
  | nil => exact ⟨0, rfl⟩
  | cons c rest ih =>
    have hworld := call_world Script.backend c s w
    obtain ⟨n, hn⟩ := ih (call Script.backend c s w).2.1 (call Script.backend c s w).2.2
    rw [pages_run_cons, hn, hworld]
    by_cases hasks : s.asks = true
    · obtain ⟨m, hm⟩ := first_pages w n
      refine ⟨m, ?_⟩
      rw [if_pos hasks, exchanges, if_pos hasks, ← hm]
      rcases w with _ | ⟨_ | page, others⟩ <;> rfl
    · rw [if_neg hasks, exchanges_of_not_asks _ _ hasks]
      exact ⟨n, rfl⟩

/-! ## Runs that have come to their end -/

/-- The requests that were answered by a page, with their answers. -/
def successes (events : List Event) : List Exchange :=
  (requests events).filter fun e => e.page?.isSome

/-- The requests of the first event come first. -/
theorem successes_cons (event : Event) (rest : List Event) :
    successes (event :: rest) = successes [event] ++ successes rest := by
  rw [successes, ← List.singleton_append, requests, List.filterMap_append, List.filter_append]
  rfl

/-- The exchanges in which further pages arrive after some pages, each when it is due. -/
def arrivals (q : NativeQuery) (size : Nat) : List Page → List Page → List Exchange
  | _, [] => []
  | before, page :: rest =>
    ⟨q, Delivery.sizeAfter size q.effectiveLimit
        (Delivery.ofPages size q.effectiveLimit before).records.length,
      before.getLast?.bind Page.cursor, .ok page⟩ :: arrivals q size (before ++ [page]) rest

variable {q : NativeQuery} {size : Nat} {past rest : List Event}

/-- The successful requests of events whose requests were due depend on the pages alone. -/
theorem successes_eq_arrivals (past : List Event) (h : AllDue q size (past ++ rest)) :
    successes rest = arrivals q size (pages past) (pages rest) := by
  induction rest generalizing past with
  | nil => rfl
  | cons event others ih =>
    have hothers := ih (past ++ [event]) (by simpa using h)
    rw [pages_append] at hothers
    rw [successes_cons, pages_cons, hothers]
    match event with
    | .reply reply =>
      rw [show pages [.reply reply] = [] from rfl, List.append_nil]
      rfl
    | .exchange ⟨query, asked, cursor, .error e⟩ =>
      rw [show pages [.exchange ⟨query, asked, cursor, .error e⟩] = [] from rfl, List.append_nil]
      rfl
    | .exchange ⟨query, asked, cursor, .ok page⟩ =>
      obtain ⟨hquery, hasked, hcursor, hused, -⟩ := h past _ others rfl
      -- What was asked for is told by the pages before, since all their records are handed out.
      rw [hused] at hasked
      rw [pages_exchange rfl, List.singleton_append, arrivals]
      dsimp only at hquery hasked hcursor
      rw [hquery, hasked, hcursor]
      rfl

/-- Before each page but a last one, the pages have not ended. -/
theorem live_of_pages_append (h : AllDue q size past) {before after : List Page} {page : Page}
    (hpages : pages past = before ++ page :: after) :
    (Delivery.ofPages size q.effectiveLimit before).ended = false := by
  obtain ⟨first, second, rfl, rfl, hsecond⟩ := List.filterMap_eq_append_iff.mp hpages
  obtain ⟨skipped, event, others, rfl, hskipped, hevent, -⟩ := List.filterMap_eq_cons_iff.mp hsecond
  cases event with
  | reply reply => cases hevent
  | exchange e =>
    have hlive := (h (first ++ skipped) e others (List.append_assoc _ _ _).symm).live
    have hsame : pages (first ++ skipped) = List.filterMap Event.page? first := by
      rw [pages_append, pages, pages, List.filterMap_eq_nil_iff.mpr hskipped, List.append_nil]
    rwa [delivered, hsame] at hlive

/-- Two runs that have ended with the first pages of one sequence have taken the same pages: none of
them goes on behind the end. -/
theorem pages_eq_of_ended {past past' : List Event} {page : Nat → Page} {m n : Nat}
    (hm : pages past = (List.range m).map page) (hn : pages past' = (List.range n).map page)
    (hdue : AllDue q size past) (hdue' : AllDue q size past')
    (hended : (delivered q size past).ended = true)
    (hended' : (delivered q size past').ended = true) : pages past = pages past' := by
  -- The shorter list is a proper beginning of the longer one, and has not ended there.
  have hsplit : ∀ {i j : Nat}, i < j → ∃ after,
      (List.range j).map page = (List.range i).map page ++ page i :: after := by
    intro i j hij
    obtain ⟨k, rfl⟩ := Nat.exists_eq_add_of_lt hij
    refine ⟨(List.range k).map fun l => page (i + (l + 1)), ?_⟩
    rw [Nat.add_assoc, List.range_add, List.map_append, List.range_succ_eq_map]
    simp [Function.comp_def]
  obtain hlt | rfl | hlt := Nat.lt_trichotomy m n
  · obtain ⟨after, hafter⟩ := hsplit hlt
    have hlive := live_of_pages_append hdue' (hn.trans hafter)
    rw [← hm] at hlive
    exact absurd (hlive.symm.trans hended) (by decide)
  · rw [hm, hn]
  · obtain ⟨after, hafter⟩ := hsplit hlt
    have hlive := live_of_pages_append hdue (hm.trans hafter)
    rw [← hn] at hlive
    exact absurd (hlive.symm.trans hended') (by decide)

/-- A session takes the first pages of its script. -/
theorem pages_session {pageSize : Int} (hsize : 0 < pageSize) {calls : List Call} {script : Script}
    {r : Run Script} (h : session Script.backend q pageSize calls script = .ok r) :
    ∃ n, pages r.events = (List.range n).map script.page := by
  rcases hrun : Script.runQuery script with ⟨e | page, others⟩
  · rw [session_of_refused hsize hrun] at h
    cases h
  · rw [session_of_answered hsize hrun] at h
    cases h
    obtain ⟨n, hn⟩ := pages_run_script calls ((init q pageSize.toNat).accept page) others
    obtain ⟨m, hm⟩ := first_pages script n
    refine ⟨m, ?_⟩
    rw [← hm, hrun, pages_cons, hn]
    rfl

/-- Sessions that have come to their end over scripts with the same pages have handed out the same
records, and their successful requests are the same. -/
theorem sessions_agree {pageSize : Int} (hsize : 0 < pageSize) {calls calls' : List Call}
    {script script' : Script} (hscript : script.pages = script'.pages) {r r' : Run Script}
    (h : session Script.backend q pageSize calls script = .ok r)
    (h' : session Script.backend q pageSize calls' script' = .ok r')
    (hstate : r.stream.state = .exhausted) (hstate' : r'.stream.state = .exhausted) :
    handedOut r.events = handedOut r'.events ∧ successes r.events = successes r'.events := by
  have htracks := tracks_session hsize h
  have htracks' := tracks_session hsize h'
  obtain ⟨hended, hpending⟩ := htracks.finished hstate
  obtain ⟨hended', hpending'⟩ := htracks'.finished hstate'
  obtain ⟨m, hm⟩ := pages_session hsize h
  obtain ⟨n, hn⟩ := pages_session hsize h'
  have hpage : script.page = script'.page := by
    funext i
    rw [Script.page, Script.page, hscript]
  rw [← hpage] at hn
  have hpages := pages_eq_of_ended hm hn htracks.allDue htracks'.allDue hended hended'
  -- Both the records and the requests are those that the pages tell.
  constructor
  · have hhanded := htracks.handed
    have hhanded' := htracks'.handed
    rw [hpending, List.append_nil] at hhanded
    rw [hpending', List.append_nil] at hhanded'
    rw [hhanded, hhanded', delivered, delivered, hpages]
  · rw [successes_eq_arrivals [] htracks.allDue,
      successes_eq_arrivals [] htracks'.allDue, hpages]

/-! ## Coming to the end -/

/-- How many calls of `next` an answer is good for, at most. -/
def Script.calls : Except Error Page → Nat
  | .ok page => page.records.length + 1
  | .error _ => 1

/-- How many calls of `next` a stream over a script can take before it is over. -/
def budget (s : Stream) (w : Script) : Nat := s.pending.length + (w.map Script.calls).sum + 1

/-- A script that fails began with the failure. -/
theorem Script.eq_cons_of_error {e : Error} {w w' : Script}
    (h : Script.runQuery w = (.error e, w')) : w = .error e :: w' := by
  match w, h with
  | .error _ :: _, rfl => rfl

/-- A page comes from the script, or is the empty one behind its end. -/
theorem Script.eq_cons_of_ok {page : Page} {w w' : Script}
    (h : Script.runQuery w = (.ok page, w')) : w = .ok page :: w' ∨ page.records = [] := by
  match w, h with
  | [], rfl => exact .inr rfl
  | .ok _ :: _, rfl => exact .inl rfl

/-- Asking for another record does not raise the number of calls that are left, and a failure lowers
it. -/
theorem budget_hasNext (s : Stream) (w : Script) :
    (hasNext Script.backend s w).2.1.state = .exhausted ∨
      budget (hasNext Script.backend s w).2.1 (hasNext Script.backend s w).2.2 +
        (if (hasNext Script.backend s w).1.isOk then 0 else 1) ≤ budget s w := by
  have hstep := hasNext_step Script.backend s w
  generalize hasNext Script.backend s w = outcome at hstep ⊢
  -- Only a request uses up the script; what a page counts there covers its records.
  cases hstep with
  | finished hstate => exact .inl hstate
  | held => exact .inr (Nat.le_refl _)
  | ended => exact .inl rfl
  | answered hasks page w' answer hrun =>
    obtain rfl | hempty := Script.eq_cons_of_ok hrun
    · right
      simp only [budget, accept_pending_eq, List.length_take, List.map_cons, List.sum_cons,
        Script.calls, Except.isOk, Except.toBool, if_true]
      omega
    · left
      rw [accept_state, hempty, List.take_nil]
      rfl
  | refused hasks e w' hrun =>
    obtain rfl := Script.eq_cons_of_error hrun
    right
    simp only [budget, List.map_cons, List.sum_cons, Script.calls, Except.isOk, Except.toBool]
    simp only [Bool.false_eq_true, if_false]
    omega

/-- A call of `next` uses up one of the calls that are left. -/
theorem budget_call (c : Call) (s : Stream) (w : Script) :
    (call Script.backend c s w).2.1.state = .exhausted ∨
      budget (call Script.backend c s w).2.1 (call Script.backend c s w).2.2 +
        (if c = .next then 1 else 0) ≤ budget s w := by
  have hbudget := budget_hasNext s w
  cases c with
  | hasNext =>
    refine hbudget.imp id fun h => ?_
    rw [if_neg (by decide)]
    exact Nat.le_trans (Nat.add_le_add_left (Nat.zero_le _) _) h
  | next =>
    rcases hasked : hasNext Script.backend s w with ⟨e | _ | _, s', w'⟩
    · rw [call, next_of_hasNext_error hasked]
      rw [hasked] at hbudget
      exact hbudget
    · left
      rw [call, next_of_hasNext_false hasked]
      exact exhausted_of_hasNext_false hasked
    · obtain ⟨r, rest, hpending, hnext⟩ := next_of_hasNext_true hasked
      rw [call, hnext]
      rw [hasked] at hbudget
      refine hbudget.imp id fun h => ?_
      -- The record that is handed out leaves the page.
      simp only [budget, hpending, List.length_cons] at h ⊢
      simp only [if_true]
      omega

/-- Enough calls of `next` bring a stream over a script to its end, whatever fails on the way. -/
theorem exhausted_of_budget_le {calls : List Call} {s : Stream} {w : Script}
    (h : budget s w ≤ calls.count .next) :
    (run Script.backend calls s w).stream.state = .exhausted := by
  induction calls generalizing s w with
  | nil => simp [budget] at h
  | cons c rest ih =>
    have hrun : (run Script.backend (c :: rest) s w).stream =
        (run Script.backend rest (call Script.backend c s w).2.1
          (call Script.backend c s w).2.2).stream := by
      rw [run_cons]
    rw [hrun]
    -- hbudget|A call ends the stream, or takes its share of the budget.
    obtain hover | hbudget := budget_call c s w
    · rw [run_of_exhausted Script.backend hover]
      exact hover
    · refine ih ?_
      rw [List.count_cons] at h
      simp only [beq_iff_eq] at h
      omega

/-! ## Sessions with failures -/

/-- A page request that fails after the first one loses nothing and can be repeated, over every
script of answers and in whatever order the calls come. At every point of a session: a call raises
an error only if its request fails, or at the end; and where its request fails, nothing has been
handed out, the books are as they were, the stream is not over, and the next call makes the same
request again. Enough calls bring the session to its end. And a session at its end has handed out
the same records, by the same successful requests, as any session at its end over the answers
without the failures. -/
theorem session_resumed (q : NativeQuery) {pageSize : Int} (hsize : 0 < pageSize) (first : Page)
    (answers : Script) :
    (∀ calls, ∃ r, session Script.backend q pageSize calls (.ok first :: answers) = .ok r ∧
      ∀ c,
        (∀ e, (call Script.backend c r.stream r.world).1.error? = some e →
          failures (run Script.backend [c] r.stream r.world).events = [e] ∨
            failures (run Script.backend [c] r.stream r.world).events = [] ∧ c = .next ∧
              e = .exhausted ∧
              (run Script.backend [c] r.stream r.world).stream.state = .exhausted) ∧
        (failures (run Script.backend [c] r.stream r.world).events ≠ [] →
          Resumable Script.backend r.stream (run Script.backend [c] r.stream r.world))) ∧
    (∃ n, ∀ calls, n ≤ calls.count .next →
      ∃ r, session Script.backend q pageSize calls (.ok first :: answers) = .ok r ∧
        r.stream.state = .exhausted) ∧
    ∀ calls calls' r r',
      session Script.backend q pageSize calls (.ok first :: answers) = .ok r →
      r.stream.state = .exhausted →
      session Script.backend q pageSize calls' (.ok first :: answers.answered) = .ok r' →
      r'.stream.state = .exhausted →
      handedOut r.events = handedOut r'.events ∧ successes r.events = successes r'.events := by
  have hopened : ∀ calls, session Script.backend q pageSize calls (.ok first :: answers) = .ok _ :=
    session_of_answered hsize rfl
  refine ⟨fun calls => ⟨_, hopened calls, fun c => ⟨fun e => failed_or_ended,
    resumable_of_failed⟩⟩, ?_, ?_⟩
  · refine ⟨budget ((init q pageSize.toNat).accept first) answers, fun calls hcalls =>
      ⟨_, hopened calls, ?_⟩⟩
    exact exhausted_of_budget_le hcalls
  · intro calls calls' r r' h hstate h' hstate'
    have hpages := (Script.pages_answered (.ok first :: answers)).symm
    exact sessions_agree hsize hpages h h' hstate hstate'

/-- Two failures in a row, met by both kinds of calls, between the first page and the last. -/
theorem session_resumed_after_failures :
    let r : Record := ⟨⟨⟨.string "Row", .string "r", rfl, rfl⟩, []⟩, [], []⟩
    let q : NativeQuery := { kind := "Row", limit := some 2 }
    let answers : Script := [.error .exhausted, .error .exhausted, .ok ⟨[r, r], some "b", true⟩]
    let first : Page := ⟨[r], some "a", true⟩
    ∃ use use',
      session Script.backend q 1 [.next, .next, .hasNext, .next, .next] (.ok first :: answers) =
        .ok use ∧
      session Script.backend q 1 [.next, .next, .hasNext] (.ok first :: answers.answered) =
        .ok use' ∧
      failures use.events = [.exhausted, .exhausted] ∧ handedOut use'.events = [r, r] ∧
      handedOut use.events = handedOut use'.events ∧
      successes use.events = successes use'.events := by
  intro r q answers first
  -- Both sessions are computed.
  have hfailing : session Script.backend q 1 [.next, .next, .hasNext, .next, .next]
      (.ok first :: answers) = .ok ⟨_, _, _⟩ := rfl
  have hclean : session Script.backend q 1 [.next, .next, .hasNext]
      (.ok first :: answers.answered) = .ok ⟨_, _, _⟩ := rfl
  obtain ⟨-, -, hsame⟩ := session_resumed q (by decide : (0 : Int) < 1) first answers
  have hagree := hsame _ _ _ _ hfailing rfl hclean rfl
  exact ⟨_, _, hfailing, hclean, rfl, rfl, hagree⟩

end Stream

end RecordStore
