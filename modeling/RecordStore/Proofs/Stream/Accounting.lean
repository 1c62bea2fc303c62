import RecordStore.Proofs.Stream.Delivery

/-!
# The accounts of a stream

A stream over any backend, whatever pages it sends and however its calls are mixed, hands out a
prefix of what the pages deliver, and makes only requests that are due. The invariant is `Tracks`,
between what has happened and the stream: opening establishes it (`Tracks.accepted`), every call
keeps it (`Tracks.called`), and so it holds throughout a run (`Tracks.run`).
-/

namespace RecordStore.Stream

variable {σ : Type} {b : Backend σ} {q : NativeQuery} {size : Nat} {past : List Event} {s : Stream}

/-- What the pages of a run deliver. -/
def delivered (q : NativeQuery) (size : Nat) (past : List Event) : Delivery :=
  .ofPages size q.effectiveLimit (pages past)

/-- The cursor of the last page. -/
def lastCursor (past : List Event) : Option String := (pages past).getLast?.bind Page.cursor

/-- An exchange that is due after some events: every record delivered so far has been handed out,
none of the pages was the last, and the request goes on from the last page and asks for what is
allowed. -/
structure Due (q : NativeQuery) (size : Nat) (past : List Event) (e : Exchange) : Prop where
  query : e.query = q
  requested : e.size = Delivery.sizeAfter size q.effectiveLimit (handedOut past).length
  cursor : e.cursor = lastCursor past
  used : handedOut past = (delivered q size past).records
  live : (delivered q size past).ended = false

/-- Every exchange was due when it took place. -/
def AllDue (q : NativeQuery) (size : Nat) (past : List Event) : Prop :=
  ∀ before e after, past = before ++ .exchange e :: after → Due q size before e

theorem AllDue.nil : AllDue q size [] := by
  intro before e after h
  cases before <;> cases h

/-- An event after exchanges that were due, and itself due if it is one. -/
theorem AllDue.append {event : Event} (h : AllDue q size past)
    (hevent : ∀ e, event = .exchange e → Due q size past e) :
    AllDue q size (past ++ [event]) := by
  intro before e after hsplit
  -- The exchange is the new event, or stands among the events before it.
  rcases List.eq_nil_or_concat after with rfl | ⟨init, last, rfl⟩
  · obtain ⟨rfl, hlast⟩ := List.append_inj' hsplit rfl
    exact hevent e (List.head_eq_of_cons_eq hlast)
  · rw [List.concat_eq_append, ← List.cons_append, ← List.append_assoc] at hsplit
    exact h before e init (List.append_inj' hsplit rfl).1

/-- The books of a stream agree with what has happened. -/
structure Accounts (q : NativeQuery) (size : Nat) (past : List Event) (s : Stream) : Prop where
  query : s.query = q
  pageSize : s.pageSize = size
  remaining : s.remaining = q.effectiveLimit.map (· - (delivered q size past).records.length)
  handed : handedOut past ++ s.pending = (delivered q size past).records
  allDue : AllDue q size past
  /-- Every page but a last one has brought a record. -/
  paid : (delivered q size past).ended = false →
    (pages past).length ≤ (delivered q size past).records.length
  counted : ∀ n, q.effectiveLimit = some n → (pages past).length ≤ n

/-- What holds of an opened stream after some events. -/
structure Tracks (q : NativeQuery) (size : Nat) (past : List Event) (s : Stream) : Prop
    extends Accounts q size past s where
  finished : s.state = .exhausted → (delivered q size past).ended = true ∧ s.pending = []
  live : s.state ≠ .exhausted →
    s.cursor = lastCursor past ∧ s.canContinue = !(delivered q size past).ended

/-- An exchange that was answered brought its page. -/
theorem pages_exchange {e : Exchange} {page : Page} (h : e.answer = .ok page) :
    pages [.exchange e] = [page] := by
  simp [pages, Event.page?, Exchange.page?, h, Except.toOption]

/-- The limit bounds what has been delivered. -/
theorem within_delivered (q : NativeQuery) (size : Nat) (past : List Event) :
    (delivered q size past).Within q.effectiveLimit :=
  Delivery.within_ofPages (fun _ h => NativeQuery.effectiveLimit_pos h) _

namespace Accounts

/-- The next request asks for what the limit allows. -/
theorem requestSize_eq (h : Accounts q size past s) :
    s.requestSize =
      Delivery.sizeAfter size q.effectiveLimit (delivered q size past).records.length := by
  rw [requestSize, h.remaining, h.pageSize]
  cases q.effectiveLimit <;> rfl

/-- Before the end, the next request asks for something. -/
theorem requestSize_pos (h : Accounts q size past s) (hsize : 0 < size)
    (hlive : (delivered q size past).ended = false) : 0 < s.requestSize := by
  have hroom := (within_delivered q size past).room hlive
  rw [h.requestSize_eq]
  cases hlimit : q.effectiveLimit with
  | none => exact hsize
  | some n => exact Nat.lt_min.mpr ⟨hsize, Nat.sub_pos_of_lt (hroom n hlimit)⟩

/-- A request of a stream whose page is used up is due. -/
theorem due (h : Accounts q size past s) (hpending : s.pending = [])
    (hlive : (delivered q size past).ended = false) {cursor : Option String}
    (hcursor : cursor = lastCursor past) (answer : Except Error Page) :
    Due q size past ⟨s.query, s.requestSize, cursor, answer⟩ := by
  have hused : handedOut past = (delivered q size past).records := by
    rw [← h.handed, hpending, List.append_nil]
  refine ⟨h.query, ?_, hcursor, hused, hlive⟩
  rw [hused, ← h.requestSize_eq]

/-- Of a page that is due, something is kept unless it is empty. -/
theorem isEmpty_kept (h : Accounts q size past s) (hsize : 0 < size)
    (hlive : (delivered q size past).ended = false) (page : Page) :
    (page.records.take s.requestSize).isEmpty = page.records.isEmpty := by
  have hpositive := h.requestSize_pos hsize hlive
  cases page.records with
  | nil => simp
  | cons r rest => simp [Nat.ne_of_gt hpositive]

/-- What a page that answers a request adds. -/
theorem delivered_exchange (h : Accounts q size past s)
    (hlive : (delivered q size past).ended = false) {e : Exchange} {page : Page}
    (hpage : e.answer = .ok page) :
    delivered q size (past ++ [.exchange e]) =
      ⟨(delivered q size past).records ++ page.records.take s.requestSize,
        Delivery.endsAt q.effectiveLimit page
          ((delivered q size past).records ++ page.records.take s.requestSize).length⟩ := by
  rw [delivered, pages_append, pages_exchange hpage, Delivery.ofPages_append, h.requestSize_eq]
  exact Delivery.add_of_live hlive page

/-- A page that answers a request that is due leaves the books in order. -/
theorem accepted (h : Accounts q size past s) (hsize : 0 < size) {e : Exchange}
    (hdue : Due q size past e) {page : Page} (hpage : e.answer = .ok page) :
    Accounts q size (past ++ [.exchange e]) (s.accept page) := by
  have hdelivered := h.delivered_exchange hdue.live hpage
  have hpages : pages (past ++ [.exchange e]) = pages past ++ [page] := by
    rw [pages_append, pages_exchange hpage]
  have hhanded : handedOut (past ++ [.exchange e]) = handedOut past := by
    simp [handedOut, Event.record?]
  have hpaid := h.paid hdue.live
  refine ⟨?_, ?_, ?_, ?_, h.allDue.append ?_, ?_, ?_⟩
  · rw [accept_query, h.query]
  · rw [accept_pageSize, h.pageSize]
  · rw [accept_remaining, h.remaining, hdelivered, Option.map_map, List.length_append]
    simp only [Function.comp_def, Nat.sub_sub]
  · rw [hhanded, accept_pending_eq, hdelivered, hdue.used]
  · rintro e' ⟨⟩
    exact hdue
  · -- a page that does not end the stream has brought a record
    rw [hdelivered, hpages]
    intro hnext
    have hsome : (page.records.take s.requestSize).isEmpty = false := by
      rw [h.isEmpty_kept hsize hdue.live]
      exact (Delivery.endsAt_eq_false_iff.mp hnext).1
    have hbrought := List.length_pos_iff.mpr (List.isEmpty_eq_false_iff.mp hsome)
    simp only [List.length_append, List.length_singleton]
    omega
  · intro n hn
    have hroom := (within_delivered q size past).room hdue.live n hn
    rw [hpages, List.length_append, List.length_singleton]
    omega

end Accounts

/-- A page that answers a request that is due is tracked. -/
theorem Tracks.accepted (h : Accounts q size past s) (hsize : 0 < size) {e : Exchange}
    (hdue : Due q size past e) {page : Page} (hpage : e.answer = .ok page) :
    Tracks q size (past ++ [.exchange e]) (s.accept page) := by
  have hdelivered := h.delivered_exchange hdue.live hpage
  have hkept := h.isEmpty_kept hsize hdue.live page
  refine ⟨h.accepted hsize hdue hpage, ?_, ?_⟩
  · rw [hdelivered, accept_state, accept_pending_eq, hkept]
    intro hover
    have hempty : page.records.isEmpty = true := by
      cases h : page.records.isEmpty with
      | true => rfl
      | false => simp [h] at hover
    refine ⟨?_, List.isEmpty_iff.mp (hkept.trans hempty)⟩
    rw [Delivery.endsAt, hempty]
    rfl
  · intro hgoing
    obtain ⟨hcursor, hmore⟩ := accept_continuation s page hgoing
    have hsome : page.records.isEmpty = false := by
      rw [accept_state, hkept] at hgoing
      exact Bool.eq_false_iff.mpr fun hempty => hgoing (if_pos hempty)
    constructor
    · simp [hcursor, lastCursor, pages_exchange hpage]
    · rw [hdelivered, Delivery.not_endsAt_of_brought hsome, canContinue, hcursor, hmore,
        accept_remaining, h.remaining, Option.map_map, List.length_append]
      simp only [Function.comp_def, Nat.sub_sub]

namespace Tracks

/-- A stream that asks has used its page up, and the pages have not ended. -/
theorem of_asks (h : Tracks q size past s) (hasks : s.asks = true) :
    s.pending = [] ∧ (delivered q size past).ended = false ∧ s.cursor = lastCursor past := by
  obtain ⟨hstate, hpending, hcontinue⟩ := asks_eq_true_iff.mp hasks
  obtain ⟨hcursor, hlive⟩ := h.live hstate
  rw [hcontinue] at hlive
  exact ⟨hpending, by simpa using hlive.symm, hcursor⟩

/-- A stream that has used its page up and may not go on is over. -/
theorem exhaust (h : Tracks q size past s) (hstate : s.state ≠ .exhausted)
    (hpending : s.pending = []) (hcontinue : s.canContinue = false) :
    Tracks q size past s.exhaust := by
  -- A stream that cannot go on has delivered all that it should.
  have hended : (delivered q size past).ended = true := by
    have hlive := (h.live hstate).2
    rw [hcontinue] at hlive
    simpa using hlive.symm
  have hhanded : handedOut past ++ s.exhaust.pending = (delivered q size past).records := by
    rw [← h.handed, hpending]
    rfl
  exact {
    query := h.query
    pageSize := h.pageSize
    remaining := h.remaining
    handed := hhanded
    allDue := h.allDue
    paid := h.paid
    counted := h.counted
    finished := fun _ => ⟨hended, rfl⟩
    live := fun hgoing => absurd rfl hgoing }

/-- An event that brings no page keeps the stream tracked, if what it hands out was held before. -/
theorem unpaged (h : Tracks q size past s) {event : Event} (hpage : event.page? = none)
    {pending : List Record} (hheld : event.record?.toList ++ pending = s.pending)
    (hdue : ∀ e, event = .exchange e → Due q size past e) {state : StreamState}
    (hstate : state = .exhausted ↔ s.state = .exhausted) :
    Tracks q size (past ++ [event]) { s with state := state, pending := pending } := by
  have hpages : pages (past ++ [event]) = pages past := by
    rw [pages_append]
    simp [pages, hpage]
  have hhanded : handedOut (past ++ [event]) = handedOut past ++ event.record?.toList := by
    rw [handedOut_append]
    cases hrecord : event.record? <;> simp [handedOut, hrecord]
  -- What the pages say depends on the pages alone.
  have hdelivered : delivered q size (past ++ [event]) = delivered q size past := by
    rw [delivered, hpages, delivered]
  have hcursor : lastCursor (past ++ [event]) = lastCursor past := by
    rw [lastCursor, hpages, lastCursor]
  refine ⟨⟨h.query, h.pageSize, ?_, ?_, h.allDue.append hdue, ?_, ?_⟩, ?_, ?_⟩
  · rw [hdelivered]
    exact h.remaining
  · rw [hdelivered, hhanded, List.append_assoc, hheld]
    exact h.handed
  · rw [hdelivered, hpages]
    exact h.paid
  · rw [hpages]
    exact h.counted
  · intro hover
    obtain ⟨hended, hnone⟩ := h.finished (hstate.mp hover)
    rw [hdelivered]
    exact ⟨hended, (List.append_eq_nil_iff.mp (hheld.trans hnone)).2⟩
  · intro hgoing
    rw [hdelivered, hcursor]
    exact h.live fun hover => hgoing (hstate.mpr hover)

/-- A failed request changes nothing but what has happened. -/
theorem refused (h : Tracks q size past s) (hstate : s.state ≠ .exhausted) {e : Exchange}
    (hdue : Due q size past e) {failure : Error} (hfailure : e.answer = .error failure) :
    Tracks q size (past ++ [.exchange e]) { s with state := .fetching } := by
  have hpage : (Event.exchange e).page? = none := by
    rw [Event.page?, Exchange.page?, hfailure]
    rfl
  refine h.unpaged hpage rfl ?_ ?_
  · rintro e' ⟨⟩
    exact hdue
  · exact iff_of_false (by decide) hstate

/-- A reply that hands nothing out keeps the stream tracked. -/
theorem replied (h : Tracks q size past s) {r : Reply} (hr : (Event.reply r).record? = none) :
    Tracks q size (past ++ [.reply r]) s := by
  have hheld : (Event.reply r).record?.toList ++ s.pending = s.pending := by
    rw [hr]
    rfl
  exact h.unpaged rfl hheld (by rintro e ⟨⟩) Iff.rfl

/-- Handing out the first record of the page keeps the stream tracked. -/
theorem handedOver (h : Tracks q size past s) {r : Record} {rest : List Record}
    (hpending : s.pending = r :: rest) :
    Tracks q size (past ++ [.reply (.handed (.ok r))]) { s with pending := rest } :=
  h.unpaged rfl hpending.symm (by rintro e ⟨⟩) Iff.rfl

/-- Asking for another record keeps the stream tracked. -/
theorem asked (h : Tracks q size past s) (hsize : 0 < size) {answer : Except Error Bool}
    {s' : Stream} {w w' : σ} (hasked : hasNext b s w = (answer, s', w')) :
    Tracks q size (past ++ (s.exchanges b w).map .exchange) s' := by
  -- One case for each way in which a stream looks ahead.
  have hstep := hasNext_step b s w
  rw [hasked] at hstep
  cases hstep with
  | finished hstate =>
    rw [exchanges_of_not_asks b w (by simp [asks_eq_true_iff, hstate]), List.map_nil,
      List.append_nil]
    exact h
  | held hstate hpending =>
    rw [exchanges_of_not_asks b w (by simp [asks_eq_true_iff, hpending]), List.map_nil,
      List.append_nil]
    exact h
  | ended hstate hpending hcontinue =>
    rw [exchanges_of_not_asks b w (by simp [asks_eq_true_iff, hcontinue]), List.map_nil,
      List.append_nil]
    exact h.exhaust hstate hpending hcontinue
  | answered hasks page _ _ hrun =>
    obtain ⟨hpending, hlive, hcursor⟩ := h.of_asks hasks
    rw [exchanges_of_asks hasks hrun]
    exact Tracks.accepted h.toAccounts hsize (h.due hpending hlive hcursor _) rfl
  | refused hasks e _ hrun =>
    obtain ⟨hpending, hlive, hcursor⟩ := h.of_asks hasks
    rw [exchanges_of_asks hasks hrun]
    exact h.refused (asks_eq_true_iff.mp hasks).1 (h.due hpending hlive hcursor _) rfl

/-- A call keeps the stream tracked. -/
theorem called (h : Tracks q size past s) (hsize : 0 < size) {c : Call} {reply : Reply}
    {s' : Stream} {w w' : σ} (hcalled : call b c s w = (reply, s', w')) :
    Tracks q size (past ++ (s.exchanges b w).map .exchange ++ [.reply reply]) s' := by
  rcases hasked : hasNext b s w with ⟨answer, s₁, w₁⟩
  -- Every call looks ahead first; what it answers adds to the events.
  have htracks := h.asked hsize hasked
  cases c with
  | hasNext =>
    rw [call, hasked] at hcalled
    cases hcalled
    exact htracks.replied rfl
  | next =>
    rw [call] at hcalled
    cases answer with
    | error e =>
      rw [next_of_hasNext_error hasked] at hcalled
      cases hcalled
      exact htracks.replied rfl
    | ok announced =>
      cases announced with
      | false =>
        rw [next_of_hasNext_false hasked] at hcalled
        cases hcalled
        exact htracks.replied rfl
      | true =>
        obtain ⟨r, rest, hpending, hnext⟩ := next_of_hasNext_true hasked
        rw [hnext] at hcalled
        cases hcalled
        exact htracks.handedOver hpending

/-- A run keeps the stream tracked. -/
theorem run (h : Tracks q size past s) (hsize : 0 < size) (b : Backend σ) (calls : List Call)
    (w : σ) :
    Tracks q size (past ++ (Stream.run b calls s w).events) (Stream.run b calls s w).stream := by
  induction calls generalizing past s w with
  | nil =>
    rw [Stream.run, List.append_nil]
    exact h
  | cons c rest ih =>
    rcases hcalled : call b c s w with ⟨reply, s', w'⟩
    -- The events of the call are past for the calls that follow.
    have htracks := ih (h.called hsize hcalled) w'
    rw [run_cons, hcalled]
    simpa using htracks

end Tracks

end RecordStore.Stream
