import RecordStore.Document.Backend
import RecordStore.Proofs.Document.Record
import RecordStore.Proofs.Store.Selection

/-!
# Pages of a document database

What paging needs of a database is said by `Database.Lists`: a query's documents are one list, of
which each call gets the part that it asks for. The document backend, which looks one document ahead
and counts what the limit still allows, then pages that list as a store in memory does
(`DocumentBackend.pages_agree`).
-/

namespace RecordStore

/-! ## Databases that list documents -/

/-- A document that stands for a record: it is read as the same record. -/
def Document.StandsFor (doc : Document) (r : Record) : Prop :=
  ∃ back, doc.toRecord = .ok back ∧ r.same back = true

/-- The document of a record stands for it, unless a blob was marked as binary data. -/
theorem Record.Storable.standsFor {r : Record} (h : r.Storable)
    (hbinary : ∀ column ∈ r.columns, ∀ bytes, column.2 ≠ .binary bytes) : r.document.StandsFor r :=
  ⟨r.plain, h.toRecord_document, same_plain h.toWellFormed hbinary⟩

/-- Documents that stand for records are read, and as the same records. -/
theorem Document.exists_read {docs : List Document} {records : List Record}
    (h : List.Forall₂ StandsFor docs records) :
    ∃ found, docs.mapM toRecord = .ok found ∧
      List.Forall₂ (fun r back => r.same back = true) records found := by
  induction h with
  | nil => exact ⟨[], rfl, .nil⟩
  | cons hfirst _ ih =>
    obtain ⟨back, hback, hsame⟩ := hfirst
    obtain ⟨found, hfound, hothers⟩ := ih
    rw [Result.mapM_eq_ok] at hfound
    exact ⟨back :: found, Result.mapM_eq_ok.mpr (.cons hback hfound), .cons hsame hothers⟩

variable {δ σ : Type}

/-- A database that answers a condition and a sort by parts of one list of documents, from states in
which that holds and which such calls lead to. -/
structure Database.Lists (db : Database δ) (collection : String) (clause : Clause)
    (keys : List SortKey) (docs : List Document) (Holds : δ → Prop) : Prop where
  answers : ∀ {w}, Holds w → ∀ offset count,
    (db.findPage collection clause keys offset count w).1 = .ok ((docs.drop offset).take count)
  holds : ∀ {w}, Holds w → ∀ offset count,
    Holds (db.findPage collection clause keys offset count w).2

/-- A database that lists documents answers with the window that was asked for. -/
theorem Database.Lists.exists_answer {db : Database δ} {collection : String} {clause : Clause}
    {keys : List SortKey} {docs : List Document} {Holds : δ → Prop}
    (h : db.Lists collection clause keys docs Holds) {w : δ} (hw : Holds w) (offset count : Nat) :
    ∃ w', db.findPage collection clause keys offset count w =
      (.ok ((docs.drop offset).take count), w') ∧ Holds w' :=
  ⟨_, Prod.ext (h.answers hw offset count) rfl, h.holds hw offset count⟩

/-- A database that holds nothing but a list of documents, which it finds whatever is asked. -/
def Database.listing (docs : List Document) : Database Unit where
  find _ _ w := (.ok docs, w)
  findPage _ _ _ offset count w := (.ok ((docs.drop offset).take count), w)
  replace _ _ _ w := (.error (.refused "read only"), w)
  remove _ _ w := (.error (.refused "read only"), w)
  createIndex _ _ w := (.error (.refused "read only"), w)

/-- A fixed listing lists its documents. -/
theorem Database.lists_listing (docs : List Document) (collection : String) (clause : Clause)
    (keys : List SortKey) :
    (Database.listing docs).Lists collection clause keys docs fun _ => True where
  answers _ _ _ := rfl
  holds _ _ _ := trivial

/-! ## Noted requests -/

namespace Backend

variable {b : Backend σ} {q : NativeQuery}

/-- Noting requests changes no page. -/
theorem Pages.noting {selected : List Record} {levels : σ → Nat} {Holds : σ → Prop}
    (h : b.Pages q levels selected Holds) :
    b.noting.Pages q (fun s => levels s.1) selected fun s => Holds s.1 where
  answers := h.answers
  holds := h.holds

/-- Each request is noted. -/
theorem after_noting (requests : Requests) (w : σ) (noted : Requests) :
    b.noting.after q requests (w, noted) = (b.after q requests w, noted ++ requests) := by
  induction requests generalizing w noted with
  | nil => exact congrArg (Prod.mk w) (List.append_nil noted).symm
  | cons request rest ih =>
    rw [after, List.foldl_cons]
    refine (ih _ _).trans ?_
    rw [List.append_assoc]
    rfl

end Backend

/-! ## The document backend -/

namespace Store

/-- A query selects what it selects without its limit, cut to the limit. -/
theorem select_of_unlimited {q : NativeQuery} {records listed : List Record}
    (h : select records { q with limit := none } = .ok listed) :
    select records q = .ok (cut q.effectiveLimit listed) := by
  obtain ⟨hevaluates, hlisted⟩ := select_eq_ok.mp h
  exact select_eq_ok.mpr ⟨hevaluates, congrArg (cut q.effectiveLimit) hlisted⟩

/-- A page is never longer than was asked for, and never reaches behind the limit. -/
theorem take_drop_cut {α : Type} (limit : Option Nat) (size offset : Nat) (xs : List α) :
    ((cut limit xs).drop offset).take size =
      (xs.drop offset).take (Delivery.sizeAfter size limit offset) := by
  cases limit with
  | none => rfl
  | some n =>
    rw [cut, Delivery.sizeAfter, List.drop_take, List.take_take]

end Store

namespace DocumentBackend

variable {b : DocumentBackend δ} {q : NativeQuery} {docs : List Document} {found : List Record}
  {levels : Nat}

/-- What is wanted of a page is what the limit still allows. -/
theorem toNat_wanted (q : NativeQuery) (size offset : Nat) :
    (wanted q size offset).toNat = Delivery.sizeAfter size q.effectiveLimit offset := by
  rw [wanted]
  cases q.effectiveLimit with
  | none => rfl
  | some n =>
    simp only [Delivery.sizeAfter]
    omega

/-- Something is wanted exactly inside the limit. -/
theorem wanted_pos_iff {size offset : Nat} (hsize : 0 < size) :
    0 < wanted q size offset ↔ ∀ n, q.effectiveLimit = some n → offset < n := by
  rw [wanted]
  cases q.effectiveLimit with
  | none => simpa using hsize
  | some n =>
    simp only [Option.some.injEq, forall_eq']
    omega

/-- A document that is found beside those of a page shows that more follow, unless the limit ends
there. -/
theorem lookAhead_eq {α β : Type} (limit : Option Nat) {size offset : Nat} {docs : List α}
    {found : List β} (hlength : docs.length = found.length)
    (hinside : ∀ n, limit = some n → offset < n) :
    let count := Delivery.sizeAfter size limit offset
    let stop := offset + ((found.drop offset).take count).length
    (decide (count < ((docs.drop offset).take (count + 1)).length) && limit.all (stop < ·)) =
      decide (stop < (cut limit found).length) := by
  intro count stop
  -- The documents and the records are as many, so either side is arithmetic about one length.
  have hstop : stop = offset + min count (found.length - offset) := by
    simp only [stop, List.length_take, List.length_drop]
  rw [Bool.eq_iff_iff, Bool.and_eq_true, decide_eq_true_iff, decide_eq_true_iff, hstop,
    List.length_take, List.length_drop, hlength]
  cases limit with
  | none =>
    simp only [cut, Option.all_none, and_true]
    omega
  | some n =>
    have hroom := hinside n rfl
    simp only [cut, List.length_take, Option.all_some, decide_eq_true_iff, count,
      Delivery.sizeAfter]
    omega

/-- The page of the documents that are found is that of the records which they stand for. -/
theorem pageOf_window (hread : docs.mapM Document.toRecord = .ok found) {size offset : Nat}
    (hinside : ∀ n, q.effectiveLimit = some n → offset < n) :
    let count := Delivery.sizeAfter size q.effectiveLimit offset
    pageOf q offset count ((docs.drop offset).take (count + 1)) =
      .ok (Store.pageOf (cut q.effectiveLimit found) offset size) := by
  intro count
  have hreads := Result.mapM_eq_ok.mp hread
  have hrecords : (((docs.drop offset).take (count + 1)).take count).mapM Document.toRecord =
      .ok ((found.drop offset).take count) := by
    rw [List.take_take, Nat.min_eq_left (Nat.le_succ count), Result.mapM_eq_ok]
    exact List.forall₂_take _ (List.forall₂_drop _ hreads)
  rw [pageOf, hrecords, Store.pageOf, Store.slice_eq, Store.take_drop_cut]
  exact congrArg (fun more => Except.ok (Page.mk _ _ more))
    (lookAhead_eq q.effectiveLimit hreads.length_eq hinside)

/-- Inside the limit, the documents of a page are asked for. -/
theorem runQuery_inside (hnothing : q.matchesNothing = false) {cursor : Option String}
    {size offset : Nat} (hcursor : Cursor.toOffset cursor levels = .ok offset) (hsize : 0 < size)
    (hinside : ∀ n, q.effectiveLimit = some n → offset < n) (w : δ) :
    b.runQuery q size cursor w levels =
      b.findPage q offset (Delivery.sizeAfter size q.effectiveLimit offset) w := by
  have hwanted := (wanted_pos_iff hsize).mpr hinside
  have hask : ¬ (decide (wanted q size offset ≤ 0) || q.matchesNothing) = true := by
    simp only [hnothing, Bool.or_false, decide_eq_true_iff]
    omega
  rw [runQuery, if_neg (by omega), hcursor]
  simp only [if_neg hask, toNat_wanted]

/-- Where the limit ends, the page is empty, and no call is made. -/
theorem runQuery_outside {cursor : Option String} {size offset : Nat}
    (hcursor : Cursor.toOffset cursor levels = .ok offset) (hsize : 0 < size) {n : Nat}
    (hlimit : q.effectiveLimit = some n) (hend : n ≤ offset) (w : δ) :
    b.runQuery q size cursor w levels = (.ok {}, w) := by
  have hnone : ¬ 0 < wanted q size offset := by
    rw [wanted_pos_iff hsize, hlimit]
    exact fun hinside => absurd (hinside n rfl) (Nat.not_lt.mpr hend)
  have hskip : (decide (wanted q size offset ≤ 0) || q.matchesNothing) = true := by
    rw [decide_eq_true (Int.not_lt.mp hnone), Bool.true_or]
  rw [runQuery, if_neg (by omega), hcursor]
  simp only [if_pos hskip]

variable {clause : Clause} {Holds : δ → Prop}

/-- The documents of a page are a part of those that the database lists, with one more. -/
theorem findPage_of_lists (hclause : Clause.ofQuery q = .ok clause)
    (hlists : b.database.Lists (b.collection q.kind) clause (SortKey.ofQuery q) docs Holds) {w : δ}
    (hw : Holds w) (offset count : Nat) :
    (b.findPage q offset count w).1 = pageOf q offset count ((docs.drop offset).take (count + 1)) ∧
      Holds (b.findPage q offset count w).2 := by
  obtain ⟨w', hreply, hw'⟩ := hlists.exists_answer hw offset (count + 1)
  rw [findPage, hclause]
  simp only [hreply]
  exact ⟨trivial, hw'⟩

/-- A database that lists the documents of a query makes a backend that pages their records, cut to
the limit. -/
theorem pages_backend (hnothing : q.matchesNothing = false)
    (hclause : Clause.ofQuery q = .ok clause)
    (hlists : b.database.Lists (b.collection q.kind) clause (SortKey.ofQuery q) docs Holds)
    (hread : docs.mapM Document.toRecord = .ok found) :
    (b.backend levels).Pages q (fun _ => levels) (cut q.effectiveLimit found) Holds where
  answers := by
    intro cursor offset size w hw hcursor hsize hinside
    obtain ⟨hpage, -⟩ := findPage_of_lists hclause hlists hw offset
      (Delivery.sizeAfter size q.effectiveLimit offset)
    rw [pageOf_window hread hinside] at hpage
    exact (congrArg Prod.fst (runQuery_inside hnothing hcursor hsize hinside w)).trans hpage
  holds := by
    intro cursor offset size w hw hcursor hsize hinside
    obtain ⟨-, hholds⟩ := findPage_of_lists hclause hlists hw offset
      (Delivery.sizeAfter size q.effectiveLimit offset)
    rwa [← runQuery_inside hnothing hcursor hsize hinside w] at hholds

/-- A page of the backend is one of the list that the database holds: inside the limit the same
page, and an empty one behind it. -/
theorem runQuery_eq (hpages : (b.backend levels).Pages q (fun _ => levels) (cut q.effectiveLimit found) Holds)
    {w : δ} (hw : Holds w) {cursor : Option String} {size offset : Nat}
    (hcursor : Cursor.toOffset cursor levels = .ok offset) (hsize : 0 < size) :
    let page := Store.pageOf (cut q.effectiveLimit found) offset size
    ∃ cursor', (b.runQuery q size cursor w levels).1 = .ok { page with cursor := cursor' } ∧
      (page.more = true → cursor' = page.cursor) := by
  intro page
  by_cases hinside : ∀ n, q.effectiveLimit = some n → offset < n
  · exact ⟨page.cursor, hpages.answers hw hcursor hsize hinside, fun _ => rfl⟩
  · -- No call is made there, but a page of the list would be empty as well.
    simp only [not_forall, not_lt] at hinside
    obtain ⟨n, hlimit, hend⟩ := hinside
    have hbehind : (cut q.effectiveLimit found).length ≤ offset :=
      Nat.le_trans (length_cut_le_limit hlimit found) hend
    have hmore : page.more = false := decide_eq_false (by
      simp only [not_lt]
      exact Nat.le_trans hbehind (Nat.le_add_right _ _))
    have hrecords : page.records = [] := by
      simp only [page, Store.pageOf, Store.slice_eq, List.drop_eq_nil_of_le hbehind, List.take_nil]
    refine ⟨none, ?_, fun h => absurd h (by simp [hmore])⟩
    rw [runQuery_outside hcursor hsize hlimit hend, hmore, hrecords]

/-- Let a database list documents for the records that a query selects from a store, limit aside. From
each cursor, read with the same room on the stack, the document backend then answers as the store does:
with the same error if it is no cursor, and otherwise with the same records, which are those from
its offset on that size and limit allow, and with the same word on whether more follow; the next
cursor stands right behind them. A stream over the document backend hands out the records up to the
limit, with one request for each page that they fill, or a single one if there are none, each from
where the one before has ended. -/
theorem pages_agree {store : Store} {listed : List Record} (hnothing : q.matchesNothing = false)
    (hclause : Clause.ofQuery q = .ok clause)
    (hlists : b.database.Lists (b.collection q.kind) clause (SortKey.ofQuery q) docs Holds)
    (hselect : Store.select store.records { q with limit := none } = .ok listed)
    (hdocs : List.Forall₂ Document.StandsFor docs listed) {w : δ} (hw : Holds w) {pageSize : Int}
    (hsize : 0 < pageSize) :
    (∀ cursor,
      match Cursor.toOffset cursor store.levels with
      | .error e =>
        (Store.runQuery q pageSize cursor store).1 = .error e ∧
          (b.runQuery q pageSize cursor w store.levels).1 = .error e
      | .ok offset =>
        ∃ own page, (Store.runQuery q pageSize cursor store).1 = .ok own ∧
          (b.runQuery q pageSize cursor w store.levels).1 = .ok page ∧
          own.records = ((cut q.effectiveLimit listed).drop offset).take pageSize.toNat ∧
          List.Forall₂ (fun r back => r.same back = true) own.records page.records ∧
          page.more = own.more ∧
          (page.more = true →
            page.cursor = some (Cursor.ofOffset (offset + page.records.length)))) ∧
      ((cut q.effectiveLimit listed).length < 10 ^ Number.maxDigits →
        ∃ records s w₁,
          Stream.open? (b.backend store.levels).noting q pageSize (w, []) = (.ok s, w₁) ∧
          List.Forall₂ (fun r back => r.same back = true) (cut q.effectiveLimit listed) records ∧
          ∀ fuel, records.length < fuel →
            let size := pageSize.toNat
            let count := max 1 ((records.length + size - 1) / size)
            let requests : Requests := (List.range count).map fun i =>
              (Delivery.sizeAfter size q.effectiveLimit (i * size),
                if i = 0 then none else some (Cursor.ofOffset (i * size)))
            ∃ s' w', Stream.drain (b.backend store.levels).noting fuel s w₁ =
                (.ok records, s', (w', requests)) ∧
              s'.state = .exhausted) := by
  -- The database lists documents, so the backend pages what they are read as, not the records.
  obtain ⟨found, hread, hsame⟩ := Document.exists_read hdocs
  have hcut := forall₂_cut q.effectiveLimit hsame
  have hpages : (b.backend store.levels).Pages q (fun _ => store.levels)
      (cut q.effectiveLimit found) Holds := pages_backend hnothing hclause hlists hread
  obtain ⟨size, rfl⟩ : ∃ size : Nat, pageSize = size := ⟨pageSize.toNat, by omega⟩
  rw [Int.toNat_natCast]
  refine ⟨fun cursor => ?_, fun hlength => ?_⟩
  · cases hcursor : Cursor.toOffset cursor store.levels with
    | error e =>
      refine ⟨?_, ?_⟩
      · rw [Store.runQuery, hcursor]
        rfl
      · rw [runQuery, if_neg (by omega), hcursor]
    | ok offset =>
      have hown : (Store.runQuery q size cursor store).1 =
          .ok (Store.pageOf (cut q.effectiveLimit listed) offset size) := by
        simp only [Store.runQuery, hcursor, Store.select_of_unlimited hselect]
        rfl
      obtain ⟨next, hpage, hnext⟩ := runQuery_eq hpages hw hcursor (Int.natCast_pos.mp hsize)
      have hrecords : List.Forall₂ (fun r back => r.same back = true)
          (Store.pageOf (cut q.effectiveLimit listed) offset size).records
          (Store.pageOf (cut q.effectiveLimit found) offset size).records := by
        simp only [Store.pageOf, Store.slice_eq]
        exact List.forall₂_take _ (List.forall₂_drop _ hcut)
      refine ⟨_, _, hown, hpage, Store.slice_eq .., hrecords, ?_, hnext⟩
      simp only [Store.pageOf] at hrecords ⊢
      rw [hrecords.length_eq, hcut.length_eq]
  · rw [hcut.length_eq] at hlength
    obtain ⟨s, w₁, hopen, hyields⟩ := Stream.yields_opened hpages.noting hsize
      (fun n hn => length_cut_le_limit hn found) hlength (w := (w, [])) hw
    refine ⟨_, s, w₁, hopen, hcut, fun fuel hfuel => ?_⟩
    have hdrained := hyields.drain_eq hfuel
    rw [Backend.after_noting, Int.toNat_natCast] at hdrained
    exact ⟨_, _, hdrained, rfl⟩

/-- Four records, one of which the filter rejects, read two at a time up to a limit of three. -/
theorem pages_agree_limited :
    let marked (key : Key) (mark : String) : Record := ⟨key, [("mark", .string mark)], []⟩
    let a := marked ⟨⟨.string "Row", .string "a", rfl, rfl⟩, []⟩ "x"
    let b := marked ⟨⟨.string "Row", .string "b", rfl, rfl⟩, []⟩ "y"
    let c := marked ⟨⟨.string "Row", .string "c", rfl, rfl⟩, []⟩ "x"
    let d := marked ⟨⟨.string "Row", .string "d", rfl, rfl⟩, []⟩ "x"
    let q : NativeQuery :=
      { kind := "Row"
        filter := .property (.text "mark") (.known .equal) (.string "x")
        limit := some 3 }
    let docs := [a, c, d].map Record.document
    let listing : DocumentBackend Unit := { database := .listing docs }
    Store.select (Store.ofRecords [a, b, c, d]).records { q with limit := none } = .ok [a, c, d] ∧
      ∃ records s w₁ s', Stream.open? listing.backend.noting q 2 ((), []) = (.ok s, w₁) ∧
        Stream.drain listing.backend.noting 4 s w₁ =
          (.ok records, s', ((), [(2, none), (1, some (Cursor.ofOffset 2))])) ∧
        List.Forall₂ (fun r back => r.same back = true) [a, c, d] records := by
  intro marked a b c d q docs listing
  have hselect : Store.select (Store.ofRecords [a, b, c, d]).records { q with limit := none } =
      .ok [a, c, d] := rfl
  have hstorable (key : Key) (mark : String) : (marked key mark).Storable :=
    Record.storable_singleton key (by decide) nofun
  have hstands (key : Key) (mark : String) :
      (marked key mark).document.StandsFor (marked key mark) :=
    (hstorable key mark).standsFor (by simp [marked])
  have hdocs : List.Forall₂ Document.StandsFor docs [a, c, d] :=
    .cons (hstands _ _) (.cons (hstands _ _) (.cons (hstands _ _) .nil))
  -- The listing answers every window of the documents, as a database does.
  obtain ⟨-, hstream⟩ := pages_agree (b := listing) (q := q) rfl rfl
    (Database.lists_listing docs _ _ _) hselect hdocs (w := ()) trivial (by decide : (0 : Int) < 2)
  have hlength : (cut q.effectiveLimit [a, c, d]).length < 10 ^ Number.maxDigits :=
    Cursor.lt_of_le_maxDigits (by decide : 3 ≤ Number.maxDigits)
  obtain ⟨records, s, w₁, hopen, hsame, hdrain⟩ := hstream hlength
  have hthree : records.length = 3 := hsame.length_eq.symm
  obtain ⟨s', w', hdrained, -⟩ := hdrain 4 (by omega)
  rw [hthree] at hdrained
  exact ⟨hselect, records, s, w₁, s', hopen, hdrained, hsame⟩

end DocumentBackend

end RecordStore
