import RecordStore.Proofs.Filter.Acceptance
import RecordStore.Proofs.Result
import RecordStore.Proofs.Stream.Paging

/-!
# What a query selects from a store

The records that a query yields, said in one expression (`Store.selection`), and that a stream over
the store hands them out page by page (`Store.drain_backend`).
-/

namespace RecordStore

/-- A list cut to a limit. -/
def cut {α : Type} (limit : Option Nat) (xs : List α) : List α :=
  match limit with
  | some n => xs.take n
  | none => xs

theorem length_cut_le {α : Type} (limit : Option Nat) (xs : List α) :
    (cut limit xs).length ≤ xs.length := by
  cases limit with
  | none => exact Nat.le_refl _
  | some n => exact List.length_take_le' n xs

/-- A limit bounds what it leaves. -/
theorem length_cut_le_limit {α : Type} {n : Nat} {limit : Option Nat} (h : limit = some n)
    (xs : List α) : (cut limit xs).length ≤ n := by
  subst h
  exact List.length_take_le n xs

/-- Related lists are related up to a limit. -/
theorem forall₂_cut {α β : Type} {R : α → β → Prop} (limit : Option Nat) {xs : List α}
    {ys : List β} (h : List.Forall₂ R xs ys) : List.Forall₂ R (cut limit xs) (cut limit ys) := by
  cases limit with
  | none => exact h
  | some n => exact List.forall₂_take n h

namespace Record

/-- Sorting only moves records. -/
theorem sortBy_perm (orderBy : List OrderBy) (records : List Record) :
    (sortBy orderBy records).Perm records := by
  rw [sortBy]
  split
  · exact .refl _
  · exact List.mergeSort_perm _ _

end Record

namespace Store

/-- The records of a kind and ancestor that a filter accepts, sorted and cut to the limit. -/
def selection (q : NativeQuery) (records : List Record) : List Record :=
  let found := (records.filter (inScope q)).filter fun r => q.filter.accepts r
  cut q.effectiveLimit (Record.sortBy q.sort found)

/-- A query selects no more than there is. -/
theorem length_selection_le (q : NativeQuery) (records : List Record) :
    (selection q records).length ≤ records.length := by
  refine Nat.le_trans (length_cut_le _ _) ?_
  rw [(Record.sortBy_perm _ _).length_eq]
  exact Nat.le_trans (List.length_filter_le _ _) (List.length_filter_le _ _)

/-- Without a limit, a query selects every record in its scope that its filter accepts. -/
theorem mem_selection {q : NativeQuery} (hlimit : q.effectiveLimit = none) {records : List Record}
    {r : Record} :
    r ∈ selection q records ↔ (r ∈ records ∧ inScope q r = true) ∧ q.filter.accepts r = true := by
  rw [selection, hlimit]
  simp only [cut, (Record.sortBy_perm _ _).mem_iff, List.mem_filter]

/-- Records can be filtered exactly if each can be evaluated; those that are accepted are found. -/
theorem passing_eq_ok {f : Filter} {records found : List Record} :
    passing f records = .ok found ↔
      (∀ r ∈ records, f.Evaluates r) ∧ found = records.filter fun r => f.accepts r := by
  induction records generalizing found with
  | nil => simp [passing, eq_comm]
  | cons r rest ih =>
    rw [passing, Result.bind_eq_ok, List.forall_mem_cons]
    constructor
    · rintro ⟨answer, hanswer, h⟩
      obtain ⟨others, hothers, h⟩ := Result.bind_eq_ok.mp h
      obtain ⟨hevaluates, haccepts⟩ := Filter.evaluates_of_passes_eq hanswer
      obtain ⟨hrest, rfl⟩ := ih.mp hothers
      refine ⟨⟨hevaluates, hrest⟩, ?_⟩
      rw [List.filter_cons, haccepts]
      exact (Except.ok.inj h).symm
    · rintro ⟨⟨hevaluates, hrest⟩, rfl⟩
      refine ⟨f.accepts r, hevaluates, Result.bind_eq_ok.mpr ⟨_, ih.mpr ⟨hrest, rfl⟩, ?_⟩⟩
      rw [List.filter_cons]
      rfl

/-- A query selects exactly if its filter can be evaluated on each record in its scope. -/
theorem select_eq_ok {q : NativeQuery} {records selected : List Record} :
    select records q = .ok selected ↔
      (∀ r ∈ records, inScope q r = true → q.filter.Evaluates r) ∧
        selected = selection q records := by
  rw [select, Result.bind_eq_ok]
  constructor
  · rintro ⟨found, hfound, h⟩
    obtain ⟨hevaluates, rfl⟩ := passing_eq_ok.mp hfound
    refine ⟨fun r hr hscope => hevaluates r (List.mem_filter.mpr ⟨hr, hscope⟩), ?_⟩
    exact (Except.ok.inj h).symm
  · rintro ⟨hevaluates, rfl⟩
    refine ⟨_, passing_eq_ok.mpr ⟨fun r hr => ?_, rfl⟩, rfl⟩
    obtain ⟨hr, hscope⟩ := List.mem_filter.mp hr
    exact hevaluates r hr hscope

/-- The store with some requests for pages noted. -/
def noting (s : Store) (sizes : List Nat) : Store :=
  { s with queries := s.queries + sizes.length, pageSizes := s.pageSizes ++ sizes.map Int.ofNat }

/-- Requests for pages leave a note each, whatever is answered. -/
theorem after_backend (q : NativeQuery) (requests : Requests) (s : Store) :
    backend.after q requests s = { s with
      queries := s.queries + requests.length
      pageSizes := s.pageSizes ++ requests.map Prod.fst } := by
  induction requests generalizing s with
  | nil => simp [Backend.after]
  | cons request rest ih =>
    rw [Backend.after, List.foldl_cons]
    refine (ih _).trans ?_
    simp [backend, runQuery, Nat.add_assoc, Nat.add_comm 1]

/-- As long as its records stay, the store answers a query by pages of what the query selects. -/
theorem pages_backend {q : NativeQuery} {records selected : List Record}
    (h : select records q = .ok selected) :
    backend.Pages q levels selected (fun s => s.records = records) where
  answers := by
    intro cursor offset size s hs hcursor _ _
    subst hs
    simp only [backend, runQuery, hcursor, h]
    rfl
  holds := fun hs _ _ _ => hs

/-- A stream over a store hands out what the query selects. -/
theorem yields_backend {store : Store} {q : NativeQuery} {selected : List Record}
    (hselect : select store.records q = .ok selected) {pageSize : Int} (hsize : 0 < pageSize)
    (hlength : store.records.length < 10 ^ Number.maxDigits) :
    let count := max 1 (Stream.pageCount pageSize.toNat selected.length)
    ∃ s w, Stream.open? backend q pageSize store = (.ok s, w) ∧
      Stream.Yields backend s w selected
        (Stream.paused q pageSize.toNat selected selected.length count).exhaust
        (noting store (Stream.requestSizes q pageSize.toNat 0 count)) := by
  obtain ⟨-, hselected⟩ := select_eq_ok.mp hselect
  -- The store has cut the list to the limit, so the stream never reaches its own before the end.
  have hlimit : ∀ n, q.effectiveLimit = some n → selected.length ≤ n := by
    rintro n hn
    rw [hselected]
    exact length_cut_le_limit hn _
  have hshort : selected.length < 10 ^ Number.maxDigits := by
    rw [hselected]
    exact Nat.lt_of_le_of_lt (length_selection_le q store.records) hlength
  obtain ⟨s, w, hopen, hyields⟩ :=
    Stream.yields_opened (pages_backend hselect) hsize hlimit hshort (w := store) rfl
  have hnoted : backend.after q (Stream.pageRequests q pageSize.toNat
      (max 1 (Stream.pageCount pageSize.toNat selected.length))) store =
        noting store (Stream.requestSizes q pageSize.toNat 0
          (max 1 (Stream.pageCount pageSize.toNat selected.length))) := by
    rw [after_backend, Stream.pageRequests_sizes, Stream.length_pageRequests, noting,
      Stream.length_requestSizes]
  rw [hnoted] at hyields
  exact ⟨s, w, hopen, hyields⟩

/-- A stream over a store hands out what the query selects, whatever the size of its pages, with one
request for each page that this fills, or a single one if it is empty; and each request asks for a
full page, or for what the limit still allows. If the filter cannot be evaluated on some record in
the scope of the query, opening the stream fails. The store may hold no more records than a cursor
can count, as no longer number is read from one. -/
theorem drain_backend (store : Store) (q : NativeQuery) {pageSize : Int} (hsize : 0 < pageSize)
    (hlength : store.records.length < 10 ^ Number.maxDigits) :
    match select store.records q with
    | .error e => (Stream.open? backend q pageSize store).1 = .error e
    | .ok selected =>
      selected = selection q store.records ∧
        ∃ s w, Stream.open? backend q pageSize store = (.ok s, w) ∧
          ∀ fuel, selected.length < fuel →
            let count := max 1 ((selected.length + pageSize.toNat - 1) / pageSize.toNat)
            let sizes := (List.range count).map fun i =>
              Delivery.sizeAfter pageSize.toNat q.effectiveLimit (i * pageSize.toNat)
            ∃ s', Stream.drain backend fuel s w = (.ok selected, s', noting store sizes) ∧
              s'.state = .exhausted ∧ s'.roundTrips = count := by
  cases hselect : select store.records q with
  | error e =>
    -- The request is noted although it fails.
    have hrun (size : Int) : backend.runQuery q size none store =
        (.error e, { store with
          queries := store.queries + 1
          pageSizes := store.pageSizes ++ [size] }) := by
      simp only [backend, runQuery, hselect]
      rfl
    simp only [Stream.open?, if_neg (show ¬pageSize ≤ 0 by omega), Stream.fetch]
    rw [show (Stream.init q pageSize.toNat).query = q from rfl, hrun]
  | ok selected =>
    obtain ⟨-, hselected⟩ := select_eq_ok.mp hselect
    obtain ⟨s, w, hopen, hyields⟩ := yields_backend hselect hsize hlength
    refine ⟨hselected, s, w, hopen, fun fuel hfuel => ?_⟩
    intro count sizes
    have hsizes : Stream.requestSizes q pageSize.toNat 0 count = sizes := by
      simp only [Stream.requestSizes, Nat.zero_add, sizes]
    refine ⟨(Stream.paused q pageSize.toNat selected selected.length count).exhaust, ?_, rfl, rfl⟩
    rw [← hsizes]
    exact hyields.drain_eq hfuel

/-- Four records, one of which the filter rejects, read two at a time up to a limit of three. -/
theorem drain_backend_limited :
    let marked (key : Key) (mark : String) : Record := ⟨key, [("mark", .string mark)], []⟩
    let a := marked ⟨⟨.string "Row", .string "a", rfl, rfl⟩, []⟩ "x"
    let b := marked ⟨⟨.string "Row", .string "b", rfl, rfl⟩, []⟩ "y"
    let c := marked ⟨⟨.string "Row", .string "c", rfl, rfl⟩, []⟩ "x"
    let d := marked ⟨⟨.string "Row", .string "d", rfl, rfl⟩, []⟩ "x"
    let q : NativeQuery :=
      { kind := "Row"
        filter := .property (.text "mark") (.known .equal) (.string "x")
        limit := some 3 }
    let store := ofRecords [a, b, c, d]
    ∃ s w s', Stream.open? backend q 2 store = (.ok s, w) ∧
      Stream.drain backend 4 s w = (.ok [a, c, d], s', noting store [2, 1]) := by
  intro marked a b c d q store
  have hlength : store.records.length < 10 ^ Number.maxDigits :=
    Nat.lt_trans (by decide : 4 < Number.maxDigits) (Nat.lt_pow_self (by decide))
  have hselect : select store.records q = .ok [a, c, d] := rfl
  have hdrain := drain_backend store q (by decide : (0 : Int) < 2) hlength
  rw [hselect] at hdrain
  obtain ⟨-, s, w, hopen, hdrained⟩ := hdrain
  obtain ⟨s', hdrained, -⟩ := hdrained 4 (by decide)
  -- Two pages; the second one is cut to what the limit leaves.
  have hsizes : ((List.range (max 1 ((3 + 2 - 1) / 2))).map fun i =>
      Delivery.sizeAfter 2 (some 3) (i * 2)) = [2, 1] := by decide
  exact ⟨s, w, s', hopen, hsizes ▸ hdrained⟩

end Store

end RecordStore
