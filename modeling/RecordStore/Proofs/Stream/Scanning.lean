import RecordStore.Proofs.Store.Selection
import RecordStore.Proofs.Stream.Trace

/-!
# Scans among writes

A scan streams all records of a kind, below an ancestor if one is given, while others write to the
store. The pages are cut by offsets out of a store that changes between them; but a record that is
written keeps its place or goes to the end (`Store.prefix_scopeKeys_put`), so that what has been
handed out stays the beginning of what the store holds. `Follows` is the invariant that says so, and
`scan_undisturbed` what it means for a whole scan.
-/

namespace RecordStore

namespace Store

/-! ## Writes -/

/-- The keys of the records in the scope of a query, in the order of the store. -/
def scopeKeys (q : NativeQuery) (s : Store) : List Key := (s.records.filter (inScope q)).map Record.key

/-- A record that is written keeps its place or goes to the end. -/
theorem prefix_keys_putRecord (records : List Record) (r : Record) :
    records.map Record.key <+: (putRecord records r).map Record.key := by
  induction records with
  | nil => exact List.nil_prefix
  | cons old rest ih =>
    rw [putRecord]
    split
    · next hsame =>
      rw [List.map_cons, List.map_cons, hsame]
    · rw [List.map_cons, List.map_cons, List.prefix_cons_inj]
      exact ih

/-- Whether a record lies in the scope of a query is told by its key. -/
theorem map_key_filter_inScope (q : NativeQuery) (records : List Record) :
    (records.filter (inScope q)).map Record.key =
      (records.map Record.key).filter fun key =>
        key.kind = .string q.kind && q.ancestor.all key.descendsFrom := by
  rw [List.filter_map]
  rfl

/-- Records that are written keep their places or go to the end. -/
theorem prefix_keys_put (s : Store) (records : List Record) :
    s.records.map Record.key <+: (s.put records).records.map Record.key := by
  have hfold (old : List Record) :
      old.map Record.key <+: (records.foldl putRecord old).map Record.key := by
    induction records generalizing old with
    | nil => exact List.prefix_refl _
    | cons r rest ih => exact (prefix_keys_putRecord old r).trans (ih _)
  exact hfold s.records

/-- The same holds of the records in the scope of a query. -/
theorem prefix_scopeKeys_put (q : NativeQuery) (s : Store) (records : List Record) :
    s.scopeKeys q <+: (s.put records).scopeKeys q := by
  rw [scopeKeys, scopeKeys, map_key_filter_inScope, map_key_filter_inScope]
  exact (prefix_keys_put s records).filter _

/-- No key stands twice in a scope. -/
theorem nodup_scopeKeys (q : NativeQuery) (s : Store) : (s.scopeKeys q).Nodup :=
  keysDistinct_filter s.distinct _

/-! ## Pages -/

variable {kind : String} {ancestor : Option Key}

/-- A query for all records of a kind selects those in its scope, in the order of the store. -/
theorem select_scope (records : List Record) :
    select records { kind, ancestor } = .ok (records.filter (inScope { kind, ancestor })) := by
  refine select_eq_ok.mpr ⟨fun _ _ _ => Filter.evaluates_everything, ?_⟩
  have haccepted : (records.filter (inScope { kind, ancestor })).filter
      (fun r => Filter.everything.accepts r) = records.filter (inScope { kind, ancestor }) :=
    List.filter_eq_self.mpr fun _ _ => rfl
  rw [selection, haccepted]
  rfl

/-- A page of such a query is cut out at the offset of its cursor; the request is noted in any
case. -/
theorem runQuery_scope (size : Int) (cursor : Option String) (s : Store) :
    backend.runQuery { kind, ancestor } size cursor s =
      ((Cursor.toOffset cursor s.levels).map fun offset =>
          pageOf (s.records.filter (inScope { kind, ancestor })) offset size,
        { s with queries := s.queries + 1, pageSizes := s.pageSizes ++ [size] }) := by
  simp only [backend, runQuery, select_scope]
  cases Cursor.toOffset cursor s.levels <;> rfl

end Store

namespace Stream

/-! ## Scans -/

/-- What happens during a scan: the consumer calls the stream, or someone writes records. -/
inductive Move
  | call (c : Call)
  | put (records : List Record)

variable {σ : Type}

/-- The run of a scan. Its events are the replies to the consumer. -/
def scan (b : Backend σ) : List Move → Stream → σ → Run σ
  | [], s, w => ⟨[], s, w⟩
  | .put records :: rest, s, w => scan b rest s (b.put records w).2
  | .call c :: rest, s, w =>
    match call b c s w with
    | (reply, s, w) =>
      let others := scan b rest s w
      { others with events := .reply reply :: others.events }

/-- Whether a reply says that something went wrong; that nothing is left does not. -/
def Reply.Fails : Reply → Prop
  | .announced answer => ∃ e, answer = .error e
  | .handed answer => ∃ e, answer = .error e ∧ e ≠ .exhausted

variable {q : NativeQuery} {opening : List Key} {handed : List Record} {s s' : Stream} {w w' : Store}

/-- A stream that has handed out some records of a store, whose keys were some others when the
stream was opened. -/
structure Follows (q : NativeQuery) (opening : List Key) (handed : List Record) (s : Stream)
    (w : Store) : Prop where
  query : s.query = q
  unlimited : s.remaining = none
  positive : 0 < s.pageSize
  /-- Writes only add to what the store held when the stream was opened. -/
  present : opening <+: w.scopeKeys q
  /-- What has come so far is the beginning of what the store holds. -/
  brought : (handed ++ s.pending).map Record.key <+: w.scopeKeys q
  /-- The stream goes on behind what has come. -/
  cursor : s.state ≠ .exhausted → s.cursor = some (Cursor.ofOffset (handed ++ s.pending).length)
  /-- A stream that will not go on has been given all that was there when it was opened. -/
  covered : s.state = .exhausted ∨ s.more = false → opening <+: (handed ++ s.pending).map Record.key
  finished : s.state = .exhausted → s.pending = []

namespace Follows

/-- Writing leaves what has come where it was. -/
theorem put (h : Follows q opening handed s w) (records : List Record) :
    Follows q opening handed s (w.put records) :=
  { h with
    present := h.present.trans (Store.prefix_scopeKeys_put q w records)
    brought := h.brought.trans (Store.prefix_scopeKeys_put q w records) }

/-- Only the records of the store matter. -/
theorem of_records_eq (h : Follows q opening handed s w) (hrecords : w'.records = w.records) :
    Follows q opening handed s w' := by
  have hkeys : w'.scopeKeys q = w.scopeKeys q := by rw [Store.scopeKeys, Store.scopeKeys, hrecords]
  exact { h with
    present := hkeys ▸ h.present
    brought := hkeys ▸ h.brought }

end Follows

/-- The page that lies behind what has been handed out leaves the stream in order. -/
theorem follows_accept (hquery : s.query = q) (hunlimited : s.remaining = none)
    (hpositive : 0 < s.pageSize) (hpresent : opening <+: w.scopeKeys q)
    (hhanded : handed.map Record.key <+: w.scopeKeys q) :
    Follows q opening handed
      (s.accept (Store.pageOf (w.records.filter (Store.inScope q)) handed.length s.requestSize)) w := by
  have hsize : s.requestSize = s.pageSize := by rw [requestSize, hunlimited]
  have hkeys : (w.scopeKeys q).length = (w.records.filter (Store.inScope q)).length :=
    List.length_map _
  generalize hpage : Store.pageOf (w.records.filter (Store.inScope q)) handed.length s.requestSize =
    page
  have hrecords : page.records =
      ((w.records.filter (Store.inScope q)).drop handed.length).take s.pageSize := by
    rw [← hpage, Store.pageOf, Store.slice_eq, hsize]
  have hlength : page.records.length =
      min s.pageSize ((w.scopeKeys q).length - handed.length) := by
    rw [hrecords, List.length_take, List.length_drop, hkeys]
  have hcursor : page.cursor = some (Cursor.ofOffset (handed.length + page.records.length)) := by
    rw [← hpage]
    rfl
  have hmore : page.more = decide (handed.length + page.records.length < (w.scopeKeys q).length) := by
    rw [hkeys, ← hpage]
    rfl
  have hpending : (s.accept page).pending = page.records := by
    rw [accept_pending_eq, List.take_of_length_le]
    omega
  have hbrought : (handed ++ page.records).map Record.key =
      (w.scopeKeys q).take (handed.length + s.pageSize) := by
    rw [List.map_append, hrecords, List.map_take, List.map_drop, List.take_add]
    congr 1
    have hprefix := List.prefix_iff_eq_take.mp hhanded
    rwa [List.length_map] at hprefix
  have hfinished : (s.accept page).state = .exhausted → page.records = [] := by
    intro hstate
    obtain ⟨hother, -⟩ | ⟨-, hnone⟩ := accept_pending s page
    · rw [hother] at hstate
      cases hstate
    · rwa [hpending] at hnone
  refine {
    query := (accept_query s page).trans hquery
    unlimited := by rw [accept_remaining, hunlimited, Option.map_none]
    positive := by rwa [accept_pageSize]
    present := hpresent
    brought := by
      rw [hpending, hbrought]
      exact List.take_prefix _ _
    cursor := fun hstate => by
      rw [(accept_continuation s page hstate).1, hcursor, hpending, List.length_append]
    covered := fun hend => ?_
    finished := fun hstate => hpending.trans (hfinished hstate) }
  -- A page without a successor reaches the end of what the store holds.
  have hall : (w.scopeKeys q).length ≤ handed.length + page.records.length := by
    by_cases hstate : (s.accept page).state = .exhausted
    · rw [hfinished hstate, List.length_nil] at hlength
      omega
    · have hlast := hend.resolve_left hstate
      rw [(accept_continuation s page hstate).2, hmore] at hlast
      exact Nat.not_lt.mp (of_decide_eq_false hlast)
  rw [hpending, hbrought, List.take_of_length_le]
  · exact hpresent
  · omega

/-! ## Calls -/

namespace Follows

variable {kind : String} {ancestor : Option Key}

/-- A request to the store fails only if what has come is too long for a cursor. -/
theorem refused (h : Follows { kind, ancestor } opening handed s w) (hasks : s.asks = true) {e : Error}
    (hrun : Store.backend.runQuery s.query s.requestSize s.cursor w = (.error e, w')) :
    ¬w.records.length < 10 ^ Number.maxDigits := by
  intro hshort
  obtain ⟨hstate, -, -⟩ := asks_eq_true_iff.mp hasks
  have hlength : (handed ++ s.pending).length ≤ w.records.length := by
    have hbrought := h.brought.length_le
    rw [List.length_map, Store.scopeKeys, List.length_map] at hbrought
    exact hbrought.trans (List.length_filter_le _ _)
  rw [h.query, Store.runQuery_scope, h.cursor hstate,
    Cursor.toOffset_ofOffset (Nat.lt_of_le_of_lt hlength hshort)] at hrun
  cases hrun

/-- Asking keeps the stream in order, and leaves the records of the store alone. -/
theorem asked (h : Follows { kind, ancestor } opening handed s w) {answer : Except Error Bool}
    (hasked : hasNext Store.backend s w = (answer, s', w')) :
    Follows { kind, ancestor } opening handed s' w' ∧ w'.records = w.records ∧
      (w.records.length < 10 ^ Number.maxDigits → ∃ more, answer = .ok more) := by
  have hstep := hasNext_step Store.backend s w
  rw [hasked] at hstep
  cases hstep with
  | finished hstate => exact ⟨h, rfl, fun _ => ⟨_, rfl⟩⟩
  | held hstate hpending => exact ⟨h, rfl, fun _ => ⟨_, rfl⟩⟩
  | ended hstate hpending hcontinue =>
    refine ⟨?_, rfl, fun _ => ⟨_, rfl⟩⟩
    -- The stream has a cursor and no limit, so that it was told that there is no more.
    have hlast : s.more = false := by
      simpa [canContinue, h.unlimited, h.cursor hstate] using hcontinue
    have hcovered := h.covered (.inr hlast)
    have hbrought := h.brought
    rw [hpending] at hcovered hbrought
    exact { h with
      brought := hbrought
      cursor := fun hne => absurd rfl hne
      covered := fun _ => hcovered
      finished := fun _ => rfl }
  | answered hasks page w₁ answer hrun hanswer =>
    obtain ⟨hstate, hpending, -⟩ := asks_eq_true_iff.mp hasks
    have hcursor := h.cursor hstate
    have hbrought := h.brought
    rw [hpending, List.append_nil] at hcursor hbrought
    rw [h.query, Store.runQuery_scope, hcursor] at hrun
    obtain ⟨hpage, rfl⟩ := Prod.mk.inj hrun
    obtain ⟨offset, hoffset, rfl⟩ := Result.map_eq_ok.mp hpage
    obtain rfl := Cursor.eq_of_toOffset_ofOffset hoffset
    refine ⟨?_, rfl, fun _ => ⟨_, rfl⟩⟩
    exact (follows_accept h.query h.unlimited h.positive h.present hbrought).of_records_eq rfl
  | refused hasks e w₁ hrun =>
    obtain ⟨hstate, -, -⟩ := asks_eq_true_iff.mp hasks
    have hrecords : w'.records = w.records := by
      rw [h.query, Store.runQuery_scope] at hrun
      exact (congrArg Store.records (Prod.mk.inj hrun).2).symm
    have hopen : StreamState.fetching ≠ .exhausted := by decide
    have hwaiting : Follows { kind, ancestor } opening handed { s with state := .fetching } w :=
      { h with
        cursor := fun _ => h.cursor hstate
        covered := fun hend => h.covered (.inr (hend.resolve_left hopen))
        finished := fun hend => absurd hend hopen }
    exact ⟨hwaiting.of_records_eq hrecords, hrecords,
      fun hshort => absurd hshort (h.refused hasks hrun)⟩

/-- The first record of the page moves to what has been handed out. -/
theorem handedOver (h : Follows q opening handed s w) {r : Record} {rest : List Record}
    (hpending : s.pending = r :: rest) :
    Follows q opening (handed ++ [r]) { s with pending := rest } w := by
  have hsame : handed ++ s.pending = handed ++ [r] ++ rest := by
    rw [hpending, List.append_assoc]
    rfl
  exact { h with
    brought := hsame ▸ h.brought
    cursor := fun hstate => hsame ▸ h.cursor hstate
    covered := fun hend => hsame ▸ h.covered hend
    finished := fun hstate => absurd ((h.finished hstate).symm.trans hpending) nofun }

/-- A call keeps the stream in order: what it hands out comes next. -/
theorem called (h : Follows { kind, ancestor } opening handed s w) {c : Call} {reply : Reply}
    (hcalled : call Store.backend c s w = (reply, s', w')) :
    Follows { kind, ancestor } opening (handed ++ handedOut [.reply reply]) s' w' ∧
      w'.records = w.records ∧ (w.records.length < 10 ^ Number.maxDigits → ¬reply.Fails) := by
  rcases hasked : hasNext Store.backend s w with ⟨answer, s₁, w₁⟩
  obtain ⟨hfollows, hrecords, hanswer⟩ := h.asked hasked
  -- What was looked ahead stays in step; a record is handed over only by `next`.
  cases c with
  | hasNext =>
    rw [call, hasked] at hcalled
    cases hcalled
    refine ⟨?_, hrecords, fun hshort hfails => ?_⟩
    · rwa [show handedOut [.reply (.announced answer)] = [] from rfl, List.append_nil]
    · obtain ⟨e, rfl⟩ := hfails
      obtain ⟨_, ⟨⟩⟩ := hanswer hshort
  | next =>
    rw [call] at hcalled
    cases answer with
    | error e =>
      rw [next_of_hasNext_error hasked] at hcalled
      cases hcalled
      refine ⟨?_, hrecords, fun hshort => ?_⟩
      · rwa [show handedOut [.reply (.handed (.error e))] = [] from rfl, List.append_nil]
      · obtain ⟨_, ⟨⟩⟩ := hanswer hshort
    | ok answer =>
      cases answer with
      | false =>
        rw [next_of_hasNext_false hasked] at hcalled
        cases hcalled
        refine ⟨?_, hrecords, fun _ hfails => ?_⟩
        · rwa [show handedOut [.reply (.handed (.error .exhausted))] = [] from rfl, List.append_nil]
        · obtain ⟨e, he, hne⟩ := hfails
          exact hne (Except.error.inj he).symm
      | true =>
        obtain ⟨r, rest, hpending, hnext⟩ := next_of_hasNext_true hasked
        rw [hnext] at hcalled
        cases hcalled
        refine ⟨?_, hrecords, fun _ hfails => ?_⟩
        · exact hfollows.handedOver hpending
        · obtain ⟨e, he, -⟩ := hfails
          cases he

/-- A scan keeps its stream in order, and the store only grows meanwhile. -/
theorem scanned (h : Follows { kind, ancestor } opening handed s w) (moves : List Move) :
    let r := scan Store.backend moves s w
    Follows { kind, ancestor } opening (handed ++ handedOut r.events) r.stream r.world ∧
      w.records.length ≤ r.world.records.length ∧
      (r.world.records.length < 10 ^ Number.maxDigits →
        ∀ reply, .reply reply ∈ r.events → ¬reply.Fails) := by
  induction moves generalizing handed s w with
  | nil =>
    refine ⟨?_, le_rfl, fun _ _ hmem => absurd hmem List.not_mem_nil⟩
    rwa [show handedOut (scan Store.backend [] s w).events = [] from rfl, List.append_nil]
  | cons move rest ih =>
    cases move with
    | put records =>
      obtain ⟨hfollows, hgrown, hfails⟩ := ih (h.put records)
      -- A write makes the store no shorter.
      have hput : w.records.length ≤ (w.put records).records.length := by
        simpa only [List.length_map] using (Store.prefix_keys_put w records).length_le
      exact ⟨hfollows, hput.trans hgrown, hfails⟩
    | call c =>
      rcases hcalled : call Store.backend c s w with ⟨reply, s₁, w₁⟩
      obtain ⟨hnext, hrecords, hreply⟩ := h.called hcalled
      obtain ⟨hfollows, hgrown, hfails⟩ := ih hnext
      rw [scan, hcalled]
      rw [hrecords] at hgrown
      refine ⟨?_, hgrown, fun hshort other hmem => ?_⟩
      · rwa [handedOut_cons, ← List.append_assoc]
      · obtain hfirst | hlater := List.mem_cons.mp hmem
        · cases hfirst
          exact hreply (Nat.lt_of_le_of_lt hgrown hshort)
        · exact hfails hshort other hlater

end Follows

/-- A scan of a store hands out every key at most once, in the order of the store, whatever is
written meanwhile: its keys are the beginning of those that the store holds in the scope at the end.
Once the stream is over, they begin with all keys that were there when it was opened. As long as the
store holds no more records than a cursor can count, no call fails. -/
theorem scan_undisturbed (kind : String) (ancestor : Option Key) {pageSize : Int}
    (hsize : 0 < pageSize) (store : Store) (moves : List Move) :
    let q : NativeQuery := { kind, ancestor }
    ∃ s w, open? Store.backend q pageSize store = (.ok s, w) ∧
      let r := scan Store.backend moves s w
      let keys := (handedOut r.events).map Record.key
      keys.Nodup ∧ keys <+: r.world.scopeKeys q ∧
        (r.stream.state = .exhausted → store.scopeKeys q <+: keys) ∧
        (r.world.records.length < 10 ^ Number.maxDigits →
          ∀ reply, .reply reply ∈ r.events → ¬reply.Fails) := by
  intro q
  -- The request for the first page is noted in the store, and leaves its records alone.
  let opened : Store :=
    { store with queries := store.queries + 1, pageSizes := store.pageSizes ++ [↑pageSize.toNat] }
  let page := Store.pageOf (store.records.filter (Store.inScope q)) 0 ↑pageSize.toNat
  have hopen : open? Store.backend q pageSize store =
      (.ok ((init q pageSize.toNat).accept page), opened) := by
    rw [open?, if_neg (by omega), fetch]
    have hrun : Store.backend.runQuery q ↑pageSize.toNat none store = (.ok page, opened) :=
      Store.runQuery_scope _ _ _
    rw [show (init q pageSize.toNat).query = q from rfl,
      show (init q pageSize.toNat).requestSize = pageSize.toNat from rfl,
      show (init q pageSize.toNat).cursor = none from rfl, hrun]
  refine ⟨_, _, hopen, ?_⟩
  have hnone : ([] : List Record).map Record.key <+: store.scopeKeys q := List.nil_prefix
  have hfollows : Follows q (store.scopeKeys q) [] ((init q pageSize.toNat).accept page) opened :=
    (follows_accept (s := init q pageSize.toNat) rfl rfl (by change 0 < pageSize.toNat; omega)
      (List.prefix_refl _) hnone).of_records_eq rfl
  obtain ⟨hend, -, hfails⟩ := hfollows.scanned moves
  have hprefix := ((List.prefix_append _ _).map Record.key).trans hend.brought
  refine ⟨(Store.nodup_scopeKeys q _).sublist hprefix.sublist, hprefix, fun hover => ?_, hfails⟩
  have hcovered := hend.covered (.inl hover)
  rwa [hend.finished hover, List.append_nil] at hcovered

/-- Two rows on one page. While the first is handed out, the second is replaced and a third one is
added, which comes too late for the page. -/
theorem scan_undisturbed_by_replacement :
    let row (name : String) (h : Json.isTruthy (.string name) = true) : Key :=
      ⟨⟨.string "Row", .string name, rfl, h⟩, []⟩
    let store := ({} : Store).put [⟨row "a" rfl, [], []⟩, ⟨row "b" rfl, [], []⟩]
    let later : List Record := [⟨row "b" rfl, [], [1]⟩, ⟨row "c" rfl, [], []⟩]
    ∃ s w, open? Store.backend { kind := "Row" } 2 store = (.ok s, w) ∧
      let r := scan Store.backend [.call .next, .put later, .call .next, .call .next] s w
      let keys := (handedOut r.events).map Record.key
      r.stream.state = .exhausted ∧ keys = [row "a" rfl, row "b" rfl] ∧
        store.scopeKeys { kind := "Row" } <+: keys ∧ keys.Nodup := by
  intro row store later
  obtain ⟨s, w, hopen, hdistinct, -, hcovered, -⟩ :=
    scan_undisturbed "Row" none (by decide : (0 : Int) < 2) store
      [.call .next, .put later, .call .next, .call .next]
  have hopened : open? Store.backend { kind := "Row" } 2 store = (.ok _, _) := rfl
  obtain ⟨hs, rfl⟩ := Prod.mk.inj (hopen.symm.trans hopened)
  obtain rfl := Except.ok.inj hs
  exact ⟨_, _, hopen, rfl, rfl, hcovered rfl, hdistinct⟩

end Stream

end RecordStore
