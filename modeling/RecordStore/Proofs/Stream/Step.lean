import RecordStore.Stream

/-!
# Single calls of a stream

What one call of `hasNext` can do, said once: `AskStep` has a case for each way it can end, and
`hasNext_step` says that there is no other. `next` hands out the first record that `hasNext` has
left (`next_of_hasNext_true`). From these follow that asking again changes nothing
(`hasNext_again`), and that a record is left exactly when the next call hands one out
(`hasNext_eq_true_iff`).
-/

namespace RecordStore.Stream

variable {σ : Type} {b : Backend σ} {s : Stream} {w : σ}

/-- Whether the next call makes a request: the stream is not over, its page is used up, and another
page may be requested. -/
def asks (s : Stream) : Bool := !s.isExhausted && s.pending.isEmpty && s.canContinue

/-- The ways in which asking for another record can end. -/
inductive AskStep (b : Backend σ) (s : Stream) (w : σ) : Except Error Bool × Stream × σ → Prop
  | finished (hstate : s.state = .exhausted) : AskStep b s w (.ok false, s, w)
  | held (hstate : s.state ≠ .exhausted) (hpending : s.pending ≠ []) :
      AskStep b s w (.ok true, s, w)
  | ended (hstate : s.state ≠ .exhausted) (hpending : s.pending = [])
      (hcontinue : s.canContinue = false) : AskStep b s w (.ok false, s.exhaust, w)
  | answered (hasks : s.asks = true) (page : Page) (w' : σ) (answer : Bool)
      (hrun : b.runQuery s.query s.requestSize s.cursor w = (.ok page, w'))
      (hanswer : answer = !(s.accept page).pending.isEmpty) :
      AskStep b s w (.ok answer, s.accept page, w')
  | refused (hasks : s.asks = true) (e : Error) (w' : σ)
      (hrun : b.runQuery s.query s.requestSize s.cursor w = (.error e, w')) :
      AskStep b s w (.error e, { s with state := .fetching }, w')

/-- A stream asks if it is not over, holds no record, and can go on. -/
theorem asks_eq_true_iff :
    s.asks = true ↔ s.state ≠ .exhausted ∧ s.pending = [] ∧ s.canContinue = true := by
  simp [asks, isExhausted, and_assoc]

/-! ## Accepting a page -/

theorem accept_query (s : Stream) (page : Page) : (s.accept page).query = s.query := by
  unfold accept
  dsimp only
  split <;> rfl

theorem accept_pageSize (s : Stream) (page : Page) : (s.accept page).pageSize = s.pageSize := by
  unfold accept
  dsimp only
  split <;> rfl

/-- The limit is charged for the records that are kept. -/
theorem accept_remaining (s : Stream) (page : Page) :
    (s.accept page).remaining =
      s.remaining.map (· - (page.records.take s.requestSize).length) := by
  unfold accept
  dsimp only
  split <;> rfl

/-- An accepted page leaves as many of its records as were asked for. -/
theorem accept_pending_eq (s : Stream) (page : Page) :
    (s.accept page).pending = page.records.take s.requestSize := by
  unfold accept
  dsimp only
  split
  · next hempty => exact (List.isEmpty_iff.mp hempty).symm
  · rfl

/-- A page that leaves no record ends the stream. -/
theorem accept_state (s : Stream) (page : Page) :
    (s.accept page).state =
      if (page.records.take s.requestSize).isEmpty then .exhausted else .hasPage := by
  unfold accept
  dsimp only
  split <;> rfl

/-- A page that leaves records says where to go on. -/
theorem accept_continuation (s : Stream) (page : Page) (h : (s.accept page).state ≠ .exhausted) :
    (s.accept page).cursor = page.cursor ∧ (s.accept page).more = page.more := by
  rw [accept_state] at h
  unfold accept
  dsimp only
  split
  · next hempty => exact absurd (if_pos hempty) h
  · exact ⟨rfl, rfl⟩

/-- An accepted page leaves records exactly if the stream is not over. -/
theorem accept_pending (s : Stream) (page : Page) :
    (s.accept page).state = .hasPage ∧ (s.accept page).pending ≠ [] ∨
      (s.accept page).state = .exhausted ∧ (s.accept page).pending = [] := by
  rw [accept_state, accept_pending_eq]
  cases page.records.take s.requestSize with
  | nil => exact .inr ⟨rfl, rfl⟩
  | cons r rest => exact .inl ⟨rfl, List.cons_ne_nil r rest⟩

/-! ## Calls -/

/-- Asking for another record ends in one of the ways of `AskStep`. -/
theorem hasNext_step (b : Backend σ) (s : Stream) (w : σ) : AskStep b s w (hasNext b s w) := by
  rw [hasNext]
  split
  · next hover => exact .finished (of_decide_eq_true hover)
  next hover =>
  have hstate : s.state ≠ .exhausted := fun h => hover (decide_eq_true h)
  split
  · next hheld => exact .held hstate (by simpa using hheld)
  next hheld =>
  have hpending : s.pending = [] := by simpa using hheld
  split
  · next hcontinue => exact .ended hstate hpending (by simpa using hcontinue)
  next hcontinue =>
  have hasks : s.asks = true := asks_eq_true_iff.mpr ⟨hstate, hpending, by simpa using hcontinue⟩
  -- Only now a request is made.
  rw [fetch]
  rcases hrun : b.runQuery s.query s.requestSize s.cursor w with ⟨e | page, w'⟩
  · exact .refused hasks e w' hrun
  · refine .answered hasks page w' _ hrun ?_
    obtain ⟨hstate, hpending⟩ | ⟨hstate, hpending⟩ := accept_pending s page
    · rw [hstate, List.isEmpty_eq_false_iff.mpr hpending]
      rfl
    · rw [hstate, hpending]
      rfl

/-- A record is announced only if the page holds one. -/
theorem pending_ne_nil_of_hasNext_true {s' : Stream} {w' : σ}
    (h : hasNext b s w = (.ok true, s', w')) : s'.pending ≠ [] := by
  have hstep := hasNext_step b s w
  rw [h] at hstep
  cases hstep with
  | held _ hpending => exact hpending
  | answered _ _ _ _ _ hanswer => simpa using hanswer

/-- Where no record is announced, the stream is over. -/
theorem exhausted_of_hasNext_false {s' : Stream} {w' : σ}
    (h : hasNext b s w = (.ok false, s', w')) : s'.state = .exhausted := by
  have hstep := hasNext_step b s w
  rw [h] at hstep
  cases hstep with
  | finished hstate => exact hstate
  | ended => rfl
  | answered _ page _ _ _ hanswer =>
    obtain ⟨-, hpending⟩ | ⟨hstate, -⟩ := accept_pending s page
    · rw [List.isEmpty_eq_false_iff.mpr hpending] at hanswer
      cases hanswer
    · exact hstate

/-- Asking fails only if a request does. -/
theorem refused_of_hasNext_error {e : Error} {s' : Stream} {w' : σ}
    (h : hasNext b s w = (.error e, s', w')) :
    s.asks = true ∧ b.runQuery s.query s.requestSize s.cursor w = (.error e, w') := by
  have hstep := hasNext_step b s w
  rw [h] at hstep
  cases hstep with
  | refused hasks _ _ hrun => exact ⟨hasks, hrun⟩

/-- Where a record is announced, the next call hands out the first one of the page. -/
theorem next_of_hasNext_true {s' : Stream} {w' : σ} (h : hasNext b s w = (.ok true, s', w')) :
    ∃ r rest, s'.pending = r :: rest ∧ next b s w = (.ok r, { s' with pending := rest }, w') := by
  obtain ⟨r, rest, hpending⟩ := List.exists_cons_of_ne_nil (pending_ne_nil_of_hasNext_true h)
  refine ⟨r, rest, hpending, ?_⟩
  rw [next, next?, h]
  simp only [hpending]

/-- Without a next record the stream is said to be over. -/
theorem next_of_hasNext_false {s' : Stream} {w' : σ} (h : hasNext b s w = (.ok false, s', w')) :
    next b s w = (.error .exhausted, s', w') := by
  rw [next, next?, h]

/-- A failure to look ahead is passed on. -/
theorem next_of_hasNext_error {e : Error} {s' : Stream} {w' : σ}
    (h : hasNext b s w = (.error e, s', w')) : next b s w = (.error e, s', w') := by
  rw [next, next?, h]

/-- A record is announced exactly when the next call would hand one out. -/
theorem hasNext_eq_true_iff :
    (hasNext b s w).1 = .ok true ↔ ∃ r, (next b s w).1 = .ok r := by
  rcases h : hasNext b s w with ⟨e | _ | _, s', w'⟩
  · rw [next_of_hasNext_error h]
    simp
  · rw [next_of_hasNext_false h]
    simp
  · obtain ⟨r, rest, -, hnext⟩ := next_of_hasNext_true h
    rw [hnext]
    simp

/-- A stream that is over says so, and stays as it is. -/
theorem hasNext_of_exhausted (b : Backend σ) (hstate : s.state = .exhausted) (w : σ) :
    hasNext b s w = (.ok false, s, w) := by
  rw [hasNext, isExhausted, hstate]
  rfl

/-- A stream that holds a record says so, and stays as it is. -/
theorem hasNext_of_held (b : Backend σ) (hstate : s.state ≠ .exhausted) (hpending : s.pending ≠ [])
    (w : σ) : hasNext b s w = (.ok true, s, w) := by
  rw [hasNext, isExhausted, decide_eq_false hstate, List.isEmpty_eq_false_iff.mpr hpending]
  rfl

/-- A stream that has used its page up and may not go on is over. -/
theorem hasNext_of_ended (b : Backend σ) (hstate : s.state ≠ .exhausted) (hpending : s.pending = [])
    (hcontinue : s.canContinue = false) (w : σ) : hasNext b s w = (.ok false, s.exhaust, w) := by
  rw [hasNext, isExhausted, decide_eq_false hstate, hpending, hcontinue]
  rfl

/-- What a stream that asks answers is decided by the backend alone. -/
theorem hasNext_of_asks (b : Backend σ) (hasks : s.asks = true) (w : σ) :
    hasNext b s w =
      match b.runQuery s.query s.requestSize s.cursor w with
      | (.ok page, w') => (.ok (!(s.accept page).pending.isEmpty), s.accept page, w')
      | (.error e, w') => (.error e, { s with state := .fetching }, w') := by
  obtain ⟨hstate, hpending, hcontinue⟩ := asks_eq_true_iff.mp hasks
  have hstep := hasNext_step b s w
  generalize hasNext b s w = outcome at hstep ⊢
  cases hstep with
  | finished hover => exact absurd hover hstate
  | held _ hheld => exact absurd hpending hheld
  | ended _ _ hended => exact absurd (hcontinue.symm.trans hended) (by decide)
  | answered _ _ _ _ hrun hanswer => rw [hrun, hanswer]
  | refused _ _ _ hrun => rw [hrun]

/-- A stream that asks goes on with the page that answers it. -/
theorem hasNext_of_answered {page : Page} {w' : σ} (hasks : s.asks = true)
    (hrun : b.runQuery s.query s.requestSize s.cursor w = (.ok page, w')) :
    hasNext b s w = (.ok (!(s.accept page).pending.isEmpty), s.accept page, w') := by
  rw [hasNext_of_asks b hasks, hrun]

/-- A stream that asks is left ready to ask again by a failure. -/
theorem hasNext_of_refused {e : Error} {w' : σ} (hasks : s.asks = true)
    (hrun : b.runQuery s.query s.requestSize s.cursor w = (.error e, w')) :
    hasNext b s w = (.error e, { s with state := .fetching }, w') := by
  rw [hasNext_of_asks b hasks, hrun]

/-- Asking again, after an answer, gives that answer and changes nothing. -/
theorem hasNext_again {answer : Bool} {s' : Stream} {w' : σ}
    (h : hasNext b s w = (.ok answer, s', w')) : hasNext b s' w' = (.ok answer, s', w') := by
  have hstep := hasNext_step b s w
  rw [h] at hstep
  cases hstep with
  | finished hstate => exact hasNext_of_exhausted b hstate w
  | held hstate hpending => exact hasNext_of_held b hstate hpending w
  | ended => exact hasNext_of_exhausted b rfl w
  | answered _ page _ _ _ hanswer =>
    -- The page that has come holds a record, or has ended the stream.
    obtain ⟨hstate, hpending⟩ | ⟨hstate, hpending⟩ := accept_pending s page
    · rw [hanswer, List.isEmpty_eq_false_iff.mpr hpending]
      exact hasNext_of_held b (by rw [hstate]; decide) hpending w'
    · rw [hanswer, hpending]
      exact hasNext_of_exhausted b hstate w'

end RecordStore.Stream
