import RecordStore.Proofs.Plan.Strategies

/-!
# The answer to a query

What a prepared query selects from a store, said in one expression for both strategies
(`Reader.answer`), failures included. Fetching gives a scan of exactly these records
(`Reader.delivers_answer`).
-/

namespace RecordStore.Reader

variable {α : Type} {reader : Reader α} {p : PreparedQuery} {store : Store}

/-- The stored records that a query asks about: those under the keys of its identifiers, or all that
lie in the scope of the layout. -/
def candidates (reader : Reader α) (store : Store) (query : RecordQuery) : Except Error (List Record) :=
  if query.hasIds then
    (query.ids.mapM reader.layout.keyOf).map fun keys => keys.filterMap store.get?
  else
    .ok (store.records.filter
      (Store.inScope { kind := reader.layout.kind, ancestor := reader.layout.parent }))

/-- Refuses a predicate with too many levels; where there are no identifiers, it must become a filter
too. -/
def checkPredicate (reader : Reader α) (p : PreparedQuery) : Except Error Unit :=
  if p.query.hasIds then p.predicate.checkDepth
  else (Filter.ofPredicate reader.conversion p.predicate).map fun _ => ()

/-- The records that the predicate of a query chooses. -/
def chosen (reader : Reader α) (p : PreparedQuery) (found : List Record) : Except Error (List Record) :=
  -- A predicate without parts chooses everything, whatever its operator.
  if p.predicate.isEmpty then .ok found
  else do
    reader.checkPredicate p
    p.predicate.choose reader.conversion found

/-- What the limit of a query leaves of a list. Where the list has been looked up by identifiers, a
limit that no list can reach is refused. -/
def upToLimit (query : RecordQuery) (records : List Record) : Except Error (List Record) :=
  if query.hasIds then truncate query.effectiveLimit records
  else .ok (cut query.effectiveLimit records)

/-- The records that a query selects, in its order and up to its limit. -/
def answer (reader : Reader α) (store : Store) (p : PreparedQuery) : Except Error (List Record) := do
  let found ← reader.candidates store p.query
  let chosen ← reader.chosen p found
  upToLimit p.query (Record.sortBy p.query.orderBy chosen)

/-- What a predicate chooses is sorted and cut. -/
theorem selectSlots_eq_chosen (reader : Reader α) (hids : p.query.hasIds = true)
    (slots : List (Option Record)) :
    reader.selectSlots p slots = (do
      let chosen ← reader.chosen p (slots.filterMap id)
      upToLimit p.query (Record.sortBy p.query.orderBy chosen)) := by
  simp only [upToLimit, hids, if_true]
  rw [selectSlots, chosen, Matcher.prepare]
  -- An empty predicate is not prepared, and chooses all records.
  cases hempty : p.predicate.isEmpty with
  | true =>
    rw [Filter.checkDepth_of_isEmpty hempty]
    rfl
  | false =>
    simp only [checkPredicate, hids, Bool.false_eq_true, if_false, if_true]
    cases p.predicate.checkDepth with
    | error e => rfl
    | ok _ =>
      have hselect : Matcher.select ⟨reader.conversion, .ofPredicate p.predicate⟩ (slots.filterMap id) =
          p.predicate.choose reader.conversion (slots.filterMap id) :=
        Matcher.select_of_prepares (MatchTree.prepares_ofPredicate _ _) _
      simp only [bind, Except.bind, pure, Except.pure, hselect]

/-- A predicate that has become a filter chooses what the filter accepts. -/
theorem chosen_of_filter (hids : p.query.hasIds = false) {f : Filter}
    (hfilter : Filter.ofPredicate reader.conversion p.predicate = .ok f) (found : List Record) :
    reader.chosen p found = .ok (found.filter fun r => f.accepts r) := by
  rw [chosen]
  obtain ⟨hempty, rfl⟩ | ⟨hempty, -, hnode⟩ := Filter.ofPredicate_eq_ok.mp hfilter
  · have hall : found.filter (fun r => Filter.everything.accepts r) = found :=
      List.filter_eq_self.mpr fun _ _ => rfl
    rw [if_pos hempty, hall]
  · rw [hempty, checkPredicate, hids, hfilter]
    exact Predicate.choose_eq_filter (fun r => (Filter.evaluate_ofNode hnode r).1) found

/-- A fetch fails, or gives a scan of some records. -/
def Delivers (b : Backend Store) (outcome : Outcome Store Scan) : Except Error (List Record) → Prop
  | .error e => ∃ w, outcome = (.error e, w)
  | .ok records => ∃ scan w, outcome = (.ok scan, w) ∧ scan.Yields b w records

/-- A fetch by identifiers delivers the answer. -/
theorem delivers_byIds (hids : p.query.hasIds = true) :
    Delivers Store.backend (reader.fetch Store.backend p store) (reader.answer store p) := by
  rw [answer, candidates, fetch, PreparedQuery.strategy, if_pos hids, if_pos hids]
  simp only [fetchByIds]
  cases p.query.ids.mapM reader.layout.keyOf with
  | error e => exact ⟨store, rfl⟩
  | ok keys =>
    -- A lookup answers key by key, with gaps where nothing is stored, which are passed over.
    have hslots : (keys.map store.get?).filterMap id = keys.filterMap store.get? := by
      rw [List.filterMap_map]
      rfl
    have hselected := selectSlots_eq_chosen reader hids (keys.map store.get?)
    rw [hslots] at hselected
    simp only [Store.backend, Store.lookup, hselected, Except.map, bind, Except.bind]
    cases reader.chosen p (keys.filterMap store.get?) with
    | error e => exact ⟨_, rfl⟩
    | ok chosen =>
      dsimp only
      cases upToLimit p.query (Record.sortBy p.query.orderBy chosen) with
      | error e => exact ⟨_, rfl⟩
      | ok records => exact ⟨_, _, rfl, .listed _ _⟩

/-- A fetch by a query delivers the answer. -/
theorem delivers_byQuery (hids : p.query.hasIds = false)
    (hlength : store.records.length < 10 ^ Number.maxDigits) :
    Delivers Store.backend (reader.fetch Store.backend p store) (reader.answer store p) := by
  have hstrategy : p.strategy = .lookupByQuery := by
    rw [PreparedQuery.strategy, hids]
    rfl
  have hfetch : reader.fetch Store.backend p store = reader.fetchByQuery Store.backend p store := by
    rw [fetch, hstrategy]
  have hcandidates : reader.candidates store p.query = .ok (store.records.filter
      (Store.inScope { kind := reader.layout.kind, ancestor := reader.layout.parent })) := by
    rw [candidates, hids]
    rfl
  cases hfilter : Filter.ofPredicate reader.conversion p.predicate with
  | error e =>
    -- A predicate without parts would have been translated.
    have hempty : p.predicate.isEmpty = false := by
      cases hempty : p.predicate.isEmpty with
      | false => rfl
      | true =>
        rw [Filter.ofPredicate_eq_ok.mpr (.inl ⟨hempty, rfl⟩)] at hfilter
        cases hfilter
    have hquery : reader.nativeQuery p = .error e := Result.bind_eq_error.mpr (.inl hfilter)
    have hchosen (found : List Record) : reader.chosen p found = .error e := by
      rw [chosen, hempty, checkPredicate, hids, hfilter]
      rfl
    have hanswer : reader.answer store p = .error e := by
      rw [answer, hcandidates]
      exact Result.bind_eq_error.mpr (.inr ⟨_, rfl, Result.bind_eq_error.mpr (.inl (hchosen _))⟩)
    rw [hanswer, hfetch, fetchByQuery, hquery]
    exact ⟨store, rfl⟩
  | ok f =>
    have hanswer : reader.answer store p =
        .ok (Store.selection (reader.native p f) store.records) := by
      have hlimited (records : List Record) :
          upToLimit p.query records = .ok (cut p.query.effectiveLimit records) := by
        rw [upToLimit, hids]
        rfl
      rw [answer, hcandidates, Store.selection, effectiveLimit_native]
      exact Result.bind_eq_ok.mpr
        ⟨_, rfl, Result.bind_eq_ok.mpr ⟨_, chosen_of_filter hids hfilter _, hlimited _⟩⟩
    rw [hanswer, hfetch]
    exact yields_byQuery hfilter hlength

/-- A query is refused, or it gives a scan of the records that it selects. -/
theorem delivers_answer (p : PreparedQuery) (hlength : store.records.length < 10 ^ Number.maxDigits) :
    Delivers Store.backend (reader.fetch Store.backend p store) (reader.answer store p) := by
  cases hids : p.query.hasIds with
  | true => exact delivers_byIds hids
  | false => exact delivers_byQuery hids hlength

/-! ## What a query does not look at -/

variable {change : Record → Record} {other : Store}

/-- A change that no condition sees changes no choice. -/
theorem choose_map {c : Conversion} {predicate : Predicate}
    (h : ∀ r, predicate.evaluate c (change r) = predicate.evaluate c r) (records : List Record) :
    predicate.choose c (records.map change) = (predicate.choose c records).map (List.map change) := by
  induction records with
  | nil => rfl
  | cons r rest ih =>
    rw [List.map_cons, Predicate.choose, Predicate.choose, h, ih]
    cases predicate.evaluate c r with
    | error e => rfl
    | ok holds =>
      cases predicate.choose c rest with
      | error e => rfl
      | ok others => cases holds <;> rfl

/-- A change that no order sees changes no order of records. -/
theorem sortBy_map {orderBy : List OrderBy} (h : ∀ o ∈ orderBy, ∀ r, (change r).get o.column = r.get o.column)
    (records : List Record) :
    Record.sortBy orderBy (records.map change) = (Record.sortBy orderBy records).map change := by
  have hcompare (a b : Record) :
      Record.compareBy orderBy (change a) (change b) = Record.compareBy orderBy a b := by
    have hfold (first : Ordering) :
        orderBy.foldl (fun order o => order.then (o.compare (change a) (change b))) first =
          orderBy.foldl (fun order o => order.then (o.compare a b)) first := by
      refine List.foldl_ext _ _ _ fun order o ho => ?_
      rw [OrderBy.compare, OrderBy.compare, h o ho, h o ho]
    exact hfold .eq
  rw [Record.sortBy, Record.sortBy]
  split
  · rfl
  · refine (List.map_mergeSort fun a _ b _ => ?_).symm
    rw [hcompare]

/-- A limit counts records whatever they are. -/
theorem cut_map (limit : Option Nat) (records : List Record) :
    cut limit (records.map change) = (cut limit records).map change := by
  cases limit with
  | none => rfl
  | some n => exact List.map_take.symm

theorem upToLimit_map (query : RecordQuery) (records : List Record) :
    upToLimit query (records.map change) = (upToLimit query records).map (List.map change) := by
  rw [upToLimit, upToLimit, truncate_eq, truncate_eq, cut_map]
  split
  · split <;> rfl
  · rfl

/-- The candidates of a query are found by their keys. -/
theorem candidates_map (hother : other.records = store.records.map change)
    (hkey : ∀ r, (change r).key = r.key) (query : RecordQuery) :
    reader.candidates other query = (reader.candidates store query).map (List.map change) := by
  rw [candidates, candidates, hother]
  split
  · have hget (key : Key) : other.get? key = (store.get? key).map change := by
      rw [Store.get?, Store.get?, hother, List.find?_map]
      simp only [Function.comp_def, hkey]
    cases query.ids.mapM reader.layout.keyOf with
    | error e => rfl
    | ok keys => simp only [Except.map, hget, List.map_filterMap]
  · have hscope (q : NativeQuery) : Store.inScope q ∘ change = Store.inScope q := by
      funext r
      rw [Function.comp_apply, Store.inScope, Store.inScope, hkey]
    rw [List.filter_map, hscope]
    rfl

/-- What neither the predicate of a query nor its ordering looks at has no influence on what is
selected. -/
theorem answer_map (hother : other.records = store.records.map change)
    (hkey : ∀ r, (change r).key = r.key)
    (hpredicate : ∀ r, p.predicate.evaluate reader.conversion (change r) =
      p.predicate.evaluate reader.conversion r)
    (horder : ∀ o ∈ p.query.orderBy, ∀ r, (change r).get o.column = r.get o.column) :
    reader.answer other p = (reader.answer store p).map (List.map change) := by
  -- Whether the predicate is refused does not depend on records, only what it chooses does.
  have hchosen (found : List Record) :
      reader.chosen p (found.map change) = (reader.chosen p found).map (List.map change) := by
    rw [chosen, chosen]
    split
    · rfl
    · rw [choose_map hpredicate]
      cases reader.checkPredicate p <;> rfl
  rw [answer, answer, candidates_map hother hkey]
  cases reader.candidates store p.query with
  | error e => rfl
  | ok found =>
    simp only [Except.map, bind, Except.bind, hchosen]
    cases reader.chosen p found with
    | error e => rfl
    | ok chosen => simp only [sortBy_map horder, upToLimit_map, Except.map]

end RecordStore.Reader
