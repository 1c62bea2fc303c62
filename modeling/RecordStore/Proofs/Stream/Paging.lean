import RecordStore.Proofs.Cursor
import RecordStore.Proofs.Stream.Delivery
import RecordStore.Script
import RecordStore.Store

/-!
# Streams over a backend that pages a list

Where a backend answers a query by pages of one list, and by cursors that are offsets into it, a
stream hands out that list (`yields_opened`), whatever the size of its pages. Between two pages such
a stream is known completely: it is `paused` at an offset. The induction is on what lies behind that
offset.
-/

namespace RecordStore

variable {σ : Type}

/-- A backend that answers a query by pages of a list, from states in which that holds and which
requests lead to such states. A state says how many levels the stack has room for where a cursor is
read. Nothing is asked of requests that no stream makes: those for no record, and those from an
offset outside the limit of the query. -/
structure Backend.Pages (b : Backend σ) (q : NativeQuery) (levels : σ → Nat) (selected : List Record)
    (Holds : σ → Prop) : Prop where
  answers : ∀ {cursor offset} {size : Nat} {w}, Holds w → Cursor.toOffset cursor (levels w) = .ok offset →
    0 < size → (∀ n, q.effectiveLimit = some n → offset < n) →
      (b.runQuery q size cursor w).1 = .ok (Store.pageOf selected offset size)
  holds : ∀ {cursor offset} {size : Nat} {w}, Holds w → Cursor.toOffset cursor (levels w) = .ok offset →
    0 < size → (∀ n, q.effectiveLimit = some n → offset < n) → Holds (b.runQuery q size cursor w).2

/-- The state that requests for pages of a query leave, one after the other. -/
def Backend.after (b : Backend σ) (q : NativeQuery) (requests : Requests) (w : σ) : σ :=
  requests.foldl (fun w request => (b.runQuery q request.1 request.2 w).2) w

namespace Store

/-- A page is a piece of the list. -/
theorem slice_eq {α : Type} (offset size : Nat) (xs : List α) :
    slice offset size xs = (xs.drop offset).take size := by
  have hstop : ¬((offset : Int) + size < 0) := by omega
  have hsize : ((offset : Int) + size).toNat - offset = size := by omega
  simp only [slice, if_neg hstop, List.drop_take, hsize]

end Store

namespace Stream

variable {b : Backend σ} {q : NativeQuery} {size : Nat} {selected : List Record}

/-! ## Handing out -/

/-- A stream hands out some records, one after the other, and then says that no other is left. -/
inductive Yields (b : Backend σ) : Stream → σ → List Record → Stream → σ → Prop
  | done {s s' : Stream} {w w' : σ} (h : next? b s w = (.ok none, s', w')) : Yields b s w [] s' w'
  | more {s s₁ s' : Stream} {w w₁ w' : σ} {r : Record} {records : List Record}
      (h : next? b s w = (.ok (some r), s₁, w₁)) (others : Yields b s₁ w₁ records s' w') :
      Yields b s w (r :: records) s' w'

/-- Draining gives what the stream hands out. -/
theorem Yields.drain_eq {s s' : Stream} {w w' : σ} {records : List Record}
    (h : Yields b s w records s' w') {fuel : Nat} (hfuel : records.length < fuel) :
    drain b fuel s w = (.ok records, s', w') := by
  induction h generalizing fuel with
  | done h =>
    obtain ⟨fuel, rfl⟩ : ∃ n, fuel = n + 1 := ⟨fuel - 1, by omega⟩
    rw [drain, h]
  | more h _ ih =>
    obtain ⟨fuel, rfl⟩ : ∃ n, fuel = n + 1 := ⟨fuel - 1, by omega⟩
    rw [drain, h]
    simp only [ih (Nat.lt_of_succ_lt_succ hfuel)]

/-- Asking first changes nothing in what is handed out. -/
theorem Yields.of_asked {answer : Bool} {s s₁ s' : Stream} {w w₁ w' : σ} {records : List Record}
    (h : hasNext b s w = (.ok answer, s₁, w₁)) (hyields : Yields b s₁ w₁ records s' w') :
    Yields b s w records s' w' := by
  have hsame : next? b s w = next? b s₁ w₁ := by rw [next?, next?, h, hasNext_again h]
  cases hyields with
  | done hnone => exact .done (hsame.trans hnone)
  | more hsome others => exact .more (hsame.trans hsome) others

/-- A stream without records left hands out nothing. -/
theorem yields_of_hasNext_false {s s' : Stream} {w w' : σ}
    (h : hasNext b s w = (.ok false, s', w')) : Yields b s w [] s' w' :=
  .done (by rw [next?, h])

/-- The records of a page are handed out before another page is asked for. -/
theorem Yields.of_page {s s' : Stream} (hstate : s.state ≠ .exhausted) {w w' : σ}
    {records : List Record} (h : Yields b { s with pending := [] } w records s' w')
    (page : List Record) : Yields b { s with pending := page } w (page ++ records) s' w' := by
  induction page with
  | nil => exact h
  | cons r others ih =>
    have hheld := hasNext_of_held b (s := { s with pending := r :: others }) hstate
      (List.cons_ne_nil r others) w
    exact .more (by rw [next?, hheld]) ih

/-! ## Between pages -/

/-- The stream that has handed out the records before an offset, and holds no other. -/
def paused (q : NativeQuery) (size : Nat) (selected : List Record) (offset trips : Nat) :
    Stream where
  query := q
  pageSize := size
  remaining := q.effectiveLimit.map (· - offset)
  state := .hasPage
  cursor := some (Cursor.ofOffset offset)
  more := offset < selected.length
  roundTrips := trips

/-- Between pages no stream is over. -/
theorem paused_ne_exhausted {offset trips : Nat} :
    (paused q size selected offset trips).state ≠ .exhausted := by
  simp [paused]

/-- The sizes of some requests that follow each other, from an offset on. -/
def requestSizes (q : NativeQuery) (size offset count : Nat) : List Nat :=
  (List.range count).map fun i => Delivery.sizeAfter size q.effectiveLimit (offset + i * size)

/-- The request for the page from an offset on. -/
def requestAt (q : NativeQuery) (size offset : Nat) (cursor : Option String) :
    Int × Option String :=
  (Delivery.sizeAfter size q.effectiveLimit offset, cursor)

/-- Some requests that follow each other, from an offset on. -/
def requestsFrom (q : NativeQuery) (size offset count : Nat) : Requests :=
  (List.range count).map fun i =>
    requestAt q size (offset + i * size) (some (Cursor.ofOffset (offset + i * size)))

/-- The requests of a stream from its opening on. The first one has no cursor. -/
def pageRequests (q : NativeQuery) (size count : Nat) : Requests :=
  (List.range count).map fun i =>
    requestAt q size (i * size) (if i = 0 then none else some (Cursor.ofOffset (i * size)))

/-- The number of pages that some records fill. -/
def pageCount (size records : Nat) : Nat := (records + size - 1) / size

/-- A request behind an offset gets a full page, or all that is left: the limit cuts the list too.
-/
theorem take_requestSize {s : Stream} {offset : Nat} (hpageSize : s.pageSize = size)
    (hremaining : s.remaining = q.effectiveLimit.map (· - offset))
    (hlimit : ∀ n, q.effectiveLimit = some n → selected.length ≤ n) :
    (selected.drop offset).take s.requestSize = (selected.drop offset).take size := by
  rw [List.take_eq_take_iff, List.length_drop, requestSize, hremaining, hpageSize]
  cases hn : q.effectiveLimit with
  | none => rfl
  | some n =>
    have := hlimit n hn
    simp only [Option.map_some]
    omega

/-- A page that brings records moves the stream on by a page, or to the end of the list. -/
theorem accept_page {s : Stream} {offset : Nat} (hquery : s.query = q)
    (hpageSize : s.pageSize = size)
    (hremaining : s.remaining = q.effectiveLimit.map (· - offset)) (hpositive : 0 < size)
    (hlimit : ∀ n, q.effectiveLimit = some n → selected.length ≤ n)
    (hoffset : offset < selected.length) :
    s.accept (Store.pageOf selected offset s.requestSize) =
      { paused q size selected (min (offset + size) selected.length) (s.roundTrips + 1) with
        pending := (selected.drop offset).take size } := by
  have htake := take_requestSize hpageSize hremaining hlimit
  have hlength :
      ((selected.drop offset).take size).length = min size (selected.length - offset) := by
    rw [List.length_take, List.length_drop]
  have hstop : offset + ((selected.drop offset).take size).length =
      min (offset + size) selected.length := by
    omega
  -- The store sends no more than the stream has asked for, so nothing of the page is dropped.
  have hagain : ((selected.drop offset).take size).take s.requestSize =
      (selected.drop offset).take size := by
    rw [← htake, List.take_take, Nat.min_self]
  have hsome : ((selected.drop offset).take size).isEmpty = false := by
    rw [List.isEmpty_eq_false_iff, ← List.length_pos_iff]
    omega
  have hleft : (s.remaining.map fun n => n - ((selected.drop offset).take size).length) =
      q.effectiveLimit.map (· - min (offset + size) selected.length) := by
    rw [hremaining, Option.map_map, ← hstop]
    simp only [Function.comp_def, Nat.sub_sub]
  simp only [accept, Store.pageOf, Store.slice_eq, htake, hagain, hsome, hstop, hleft, hquery,
    hpageSize]
  rfl

/-- A page behind the end of the list ends the stream. -/
theorem accept_page_at_end {s : Stream} (hquery : s.query = q) (hpageSize : s.pageSize = size)
    (hremaining : s.remaining = q.effectiveLimit.map (· - selected.length)) :
    s.accept (Store.pageOf selected selected.length s.requestSize) =
      (paused q size selected selected.length (s.roundTrips + 1)).exhaust := by
  simp [accept, Store.pageOf, Store.slice_eq, hquery, hpageSize, hremaining, exhaust, paused,
    Function.comp_def]

/-- A stream that is paused before the end of the list asks for the next page. -/
theorem asks_paused {offset trips : Nat}
    (hlimit : ∀ n, q.effectiveLimit = some n → selected.length ≤ n)
    (hoffset : offset < selected.length) : (paused q size selected offset trips).asks = true := by
  rw [asks_eq_true_iff]
  refine ⟨paused_ne_exhausted, rfl, ?_⟩
  cases hn : q.effectiveLimit with
  | none => simp [canContinue, paused, hn, hoffset]
  | some n =>
    have hroom := hlimit n hn
    have hleft : n - offset ≠ 0 := by omega
    simp [canContinue, paused, hn, hoffset, hleft]

/-- A page, and what lies behind it. -/
theorem take_append_drop_page (size offset : Nat) (selected : List Record) :
    (selected.drop offset).take size ++ selected.drop (min (offset + size) selected.length) =
      selected.drop offset := by
  have hbehind : selected.drop (min (offset + size) selected.length) =
      (selected.drop offset).drop size := by
    rw [List.drop_drop]
    rcases Nat.le_total (offset + size) selected.length with hle | hle
    · rw [Nat.min_eq_left hle]
    · rw [Nat.min_eq_right hle, List.drop_length, List.drop_eq_nil_of_le hle]
  rw [hbehind, List.take_append_drop]

/-- A page and the pages that the other records fill. -/
theorem pageCount_of_pos {records : Nat} (hsize : 0 < size) (hrecords : 0 < records) :
    pageCount size records = pageCount size (records - size) + 1 := by
  rw [pageCount, pageCount]
  by_cases hlast : records ≤ size
  · have hone : records + size - 1 = records - 1 + size := by omega
    have hnone : records - size + size - 1 = size - 1 := by omega
    rw [hone, hnone, Nat.add_div_right _ hsize, Nat.div_eq_of_lt (by omega),
      Nat.div_eq_of_lt (by omega)]
  · have hmore : records + size - 1 = records - size + size - 1 + size := by omega
    rw [hmore, Nat.add_div_right _ hsize]

/-- No records fill no pages. -/
theorem pageCount_zero (hsize : 0 < size) : pageCount size 0 = 0 := by
  rw [pageCount, Nat.zero_add]
  exact Nat.div_eq_of_lt (by omega)

/-- The first of some requests, and those that follow it. -/
theorem requestsFrom_succ (q : NativeQuery) (size offset count : Nat) :
    requestsFrom q size offset (count + 1) =
      requestAt q size offset (some (Cursor.ofOffset offset)) ::
        requestsFrom q size (offset + size) count := by
  rw [requestsFrom, requestsFrom, List.range_succ_eq_map, List.map_cons, List.map_map,
    Nat.zero_mul, Nat.add_zero]
  refine congrArg _ (List.map_congr_left fun i _ => ?_)
  rw [Function.comp_apply, Nat.succ_mul, Nat.add_assoc, Nat.add_comm size]

/-- The first request from an offset on, and those that follow its page. -/
theorem requestsFrom_of_lt (q : NativeQuery) (hsize : 0 < size) {offset length : Nat}
    (hoffset : offset < length) :
    requestsFrom q size offset (pageCount size (length - offset)) =
      requestAt q size offset (some (Cursor.ofOffset offset)) ::
        requestsFrom q size (min (offset + size) length)
          (pageCount size (length - min (offset + size) length)) := by
  rw [pageCount_of_pos hsize (by omega), requestsFrom_succ]
  rcases Nat.le_total (offset + size) length with hle | hle
  · rw [Nat.min_eq_left hle, Nat.sub_sub]
  · rw [Nat.min_eq_right hle, Nat.sub_sub, Nat.sub_eq_zero_of_le hle, Nat.sub_self,
      pageCount_zero hsize]
    rfl

/-- After the first request of a stream, the others have cursors. -/
theorem pageRequests_succ (q : NativeQuery) (size count : Nat) :
    pageRequests q size (count + 1) =
      requestAt q size 0 none :: requestsFrom q size size count := by
  rw [pageRequests, requestsFrom, List.range_succ_eq_map, List.map_cons, List.map_map, Nat.zero_mul]
  refine congrArg _ (List.map_congr_left fun i _ => ?_)
  rw [Function.comp_apply, if_neg (Nat.succ_ne_zero i), Nat.succ_mul, Nat.add_comm size]

theorem length_pageRequests (q : NativeQuery) (size count : Nat) :
    (pageRequests q size count).length = count := by
  rw [pageRequests, List.length_map, List.length_range]

theorem length_requestsFrom (q : NativeQuery) (size offset count : Nat) :
    (requestsFrom q size offset count).length = count := by
  rw [requestsFrom, List.length_map, List.length_range]

/-- The first request of a stream over a list that is not empty, and those that follow its page. -/
theorem pageRequests_of_pos (q : NativeQuery) (hsize : 0 < size) {length : Nat}
    (hlength : 0 < length) :
    pageRequests q size (pageCount size length) =
      requestAt q size 0 none ::
        requestsFrom q size (min (0 + size) length)
          (pageCount size (length - min (0 + size) length)) := by
  rw [pageCount_of_pos hsize hlength, pageRequests_succ, Nat.zero_add]
  rcases Nat.le_total size length with hle | hle
  · rw [Nat.min_eq_left hle]
  · rw [Nat.min_eq_right hle, Nat.sub_eq_zero_of_le hle, Nat.sub_self, pageCount_zero hsize]
    rfl

theorem length_requestSizes (q : NativeQuery) (size offset count : Nat) :
    (requestSizes q size offset count).length = count := by
  rw [requestSizes, List.length_map, List.length_range]

/-- The sizes of the requests of a stream. -/
theorem pageRequests_sizes (q : NativeQuery) (size count : Nat) :
    (pageRequests q size count).map Prod.fst = (requestSizes q size 0 count).map Int.ofNat := by
  rw [pageRequests, requestSizes, List.map_map, List.map_map]
  refine List.map_congr_left fun i _ => ?_
  simp only [Function.comp_apply, requestAt, Nat.zero_add]
  rfl

/-- A request inside the limit asks for something. -/
theorem sizeAfter_pos {offset : Nat} (hsize : 0 < size)
    (hoffset : ∀ n, q.effectiveLimit = some n → offset < n) :
    0 < Delivery.sizeAfter size q.effectiveLimit offset := by
  cases hn : q.effectiveLimit with
  | none => exact hsize
  | some n =>
    have hroom := hoffset n hn
    simp only [Delivery.sizeAfter]
    omega

/-- The size of the request of a paused stream. -/
theorem requestSize_paused (offset trips : Nat) :
    (paused q size selected offset trips).requestSize =
      Delivery.sizeAfter size q.effectiveLimit offset := by
  rw [requestSize, paused]
  cases q.effectiveLimit <;> rfl

variable {levels : σ → Nat} {Holds : σ → Prop}

/-- The next page of a paused stream. -/
theorem hasNext_paused (hb : b.Pages q levels selected Holds) (hsize : 0 < size)
    (hlimit : ∀ n, q.effectiveLimit = some n → selected.length ≤ n)
    (hlength : selected.length < 10 ^ Number.maxDigits) {offset : Nat}
    (hoffset : offset < selected.length) {w : σ} (hw : Holds w) (trips : Nat) :
    let w' := b.after q [requestAt q size offset (some (Cursor.ofOffset offset))] w
    hasNext b (paused q size selected offset trips) w =
        (.ok true, { paused q size selected (min (offset + size) selected.length) (trips + 1) with
          pending := (selected.drop offset).take size }, w') ∧
      Holds w' := by
  intro w'
  -- The cursor is read as its offset, which lies inside the selection.
  have hcursor : Cursor.toOffset (some (Cursor.ofOffset offset)) (levels w) = .ok offset :=
    Cursor.toOffset_ofOffset (Nat.lt_trans hoffset hlength)
  have hinside : ∀ n, q.effectiveLimit = some n → offset < n :=
    fun n hn => Nat.lt_of_lt_of_le hoffset (hlimit n hn)
  have hasked : 0 < (paused q size selected offset trips).requestSize := by
    rw [requestSize_paused]
    exact sizeAfter_pos hsize hinside
  have hrun : b.runQuery q (paused q size selected offset trips).requestSize
      (some (Cursor.ofOffset offset)) w =
        (.ok (Store.pageOf selected offset (paused q size selected offset trips).requestSize),
          w') := by
    refine Prod.ext (hb.answers hw hcursor hasked hinside) ?_
    rw [requestSize_paused]
    rfl
  have haccept := accept_page (s := paused q size selected offset trips) (rfl : _ = q)
    (rfl : _ = size) rfl hsize hlimit hoffset
  have hsome : ((selected.drop offset).take size).isEmpty = false := by
    rw [List.isEmpty_eq_false_iff, ← List.length_pos_iff, List.length_take, List.length_drop]
    omega
  constructor
  · rw [hasNext_of_answered (asks_paused hlimit hoffset) hrun, haccept]
    simp only [hsome]
    rfl
  · rw [requestSize_paused] at hasked
    exact hb.holds hw hcursor hasked hinside

/-- A stream that is paused at an offset hands out what lies behind it, page by page, and is over
then. -/
theorem yields_paused (hb : b.Pages q levels selected Holds) (hsize : 0 < size)
    (hlimit : ∀ n, q.effectiveLimit = some n → selected.length ≤ n)
    (hlength : selected.length < 10 ^ Number.maxDigits) {offset : Nat}
    (hoffset : offset ≤ selected.length) {w : σ} (hw : Holds w) (trips : Nat) :
    Yields b (paused q size selected offset trips) w (selected.drop offset)
      (paused q size selected selected.length
        (trips + pageCount size (selected.length - offset))).exhaust
      (b.after q (requestsFrom q size offset (pageCount size (selected.length - offset))) w) := by
  induction hleft : selected.length - offset using Nat.strongRecOn
    generalizing offset w trips with
  | ind left ih =>
    rcases Nat.lt_or_ge offset selected.length with hmore | hend
    · -- One more page, after which the stream is paused further on.
      obtain ⟨hasked, hafter⟩ := hasNext_paused hb hsize hlimit hlength hmore hw trips
      have hrest := ih (selected.length - min (offset + size) selected.length) (by omega)
        (Nat.min_le_right ..) hafter (trips + 1) rfl
      have hpage := hrest.of_page paused_ne_exhausted ((selected.drop offset).take size)
      have hyields := hpage.of_asked hasked
      have hrequests := requestsFrom_of_lt q hsize hmore
      have hcount := congrArg List.length hrequests
      rw [List.length_cons, length_requestsFrom, length_requestsFrom, hleft] at hcount
      rw [hleft] at hrequests
      rw [take_append_drop_page, Nat.add_assoc trips 1, Nat.add_comm 1] at hyields
      rw [hrequests, hcount]
      exact hyields
    · -- Nothing lies behind the offset, and no request is made.
      obtain rfl : offset = selected.length := Nat.le_antisymm hoffset hend
      obtain rfl : left = 0 := by omega
      have hended := hasNext_of_ended b (s := paused q size selected selected.length trips)
        paused_ne_exhausted rfl (by simp [canContinue, paused]) w
      rw [pageCount_zero hsize, List.drop_length]
      exact yields_of_hasNext_false hended

/-- What a stream hands out when its first page has come. -/
theorem yields_accepted (hb : b.Pages q levels selected Holds) (hsize : 0 < size)
    (hlimit : ∀ n, q.effectiveLimit = some n → selected.length ≤ n)
    (hlength : selected.length < 10 ^ Number.maxDigits) {w : σ}
    (hw : Holds (b.after q [requestAt q size 0 none] w)) :
    Yields b ((init q size).accept (Store.pageOf selected 0 (init q size).requestSize))
      (b.after q [requestAt q size 0 none] w) selected
      (paused q size selected selected.length (max 1 (pageCount size selected.length))).exhaust
      (b.after q (pageRequests q size (max 1 (pageCount size selected.length))) w) := by
  have hremaining : (init q size).remaining = q.effectiveLimit.map (· - 0) := by
    cases h : q.effectiveLimit <;> simp [init, h]
  rcases Nat.eq_zero_or_pos selected.length with hempty | hsome
  · -- The first request is made even where it brings nothing.
    obtain rfl := List.length_eq_zero_iff.mp hempty
    have haccept : (init q size).accept (Store.pageOf [] 0 (init q size).requestSize) =
        (paused q size [] 0 1).exhaust := accept_page_at_end rfl rfl hremaining
    have hcount : max 1 (pageCount size 0) = 1 := by rw [pageCount_zero hsize, Nat.max_zero]
    rw [haccept, List.length_nil, hcount, pageRequests_succ]
    exact yields_of_hasNext_false (hasNext_of_exhausted b rfl _)
  · have hrequests := pageRequests_of_pos q hsize hsome
    -- The first page is one of them, and the others follow from its end.
    have hlast : pageCount size selected.length =
        pageCount size (selected.length - min (0 + size) selected.length) + 1 := by
      have := congrArg List.length hrequests
      rwa [List.length_cons, length_requestsFrom, length_pageRequests] at this
    have hcount : max 1 (pageCount size selected.length) = pageCount size selected.length := by
      omega
    have haccept := accept_page (rfl : (init q size).query = q) (rfl : _ = size) hremaining hsize
      hlimit hsome
    have hrest := yields_paused hb hsize hlimit hlength
      (Nat.min_le_right (0 + size) selected.length) hw 1
    have hyields := hrest.of_page paused_ne_exhausted ((selected.drop 0).take size)
    rw [take_append_drop_page, List.drop_zero, Nat.add_comm 1, ← hlast] at hyields
    rw [haccept, hcount, hrequests]
    exact hyields

/-- A stream over a backend that pages a list hands out that list, and is over then. It makes one
request for each page that the list fills, or a single one for an empty list, and asks each time for
what the limit allows. -/
theorem yields_opened (hb : b.Pages q levels selected Holds) {pageSize : Int} (hsize : 0 < pageSize)
    (hlimit : ∀ n, q.effectiveLimit = some n → selected.length ≤ n)
    (hlength : selected.length < 10 ^ Number.maxDigits) {w : σ} (hw : Holds w) :
    let count := max 1 (pageCount pageSize.toNat selected.length)
    ∃ s w₁, open? b q pageSize w = (.ok s, w₁) ∧
      Yields b s w₁ selected (paused q pageSize.toNat selected selected.length count).exhaust
        (b.after q (pageRequests q pageSize.toNat count) w) := by
  have hpositive : 0 < pageSize.toNat := by omega
  -- The first request is cut to the limit as the later ones are.
  have hfirst : (init q pageSize.toNat).requestSize =
      Delivery.sizeAfter pageSize.toNat q.effectiveLimit 0 := by
    rw [requestSize, init]
    cases q.effectiveLimit <;> rfl
  have hstart : Cursor.toOffset none (levels w) = .ok 0 := rfl
  have hinside : ∀ n, q.effectiveLimit = some n → 0 < n := fun n hn => q.effectiveLimit_pos hn
  have hasked : 0 < Delivery.sizeAfter pageSize.toNat q.effectiveLimit 0 :=
    sizeAfter_pos hpositive hinside
  have hrun : b.runQuery q (init q pageSize.toNat).requestSize none w =
      (.ok (Store.pageOf selected 0 (init q pageSize.toNat).requestSize),
        b.after q [requestAt q pageSize.toNat 0 none] w) := by
    rw [hfirst]
    exact Prod.ext (hb.answers hw hstart hasked hinside) rfl
  have hopen : open? b q pageSize w =
      (.ok ((init q pageSize.toNat).accept
        (Store.pageOf selected 0 (init q pageSize.toNat).requestSize)),
        b.after q [requestAt q pageSize.toNat 0 none] w) := by
    rw [open?, if_neg (by omega), fetch]
    simp only [show (init q pageSize.toNat).query = q from rfl, hrun]
  exact ⟨_, _, hopen,
    yields_accepted hb hpositive hlimit hlength (hb.holds hw hstart hasked hinside)⟩

end Stream

end RecordStore
