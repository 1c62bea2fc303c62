import RecordStore.Plan
import RecordStore.Proofs.Filter.Translation
import RecordStore.Proofs.Key.Text
import RecordStore.Proofs.Store.Lookup
import RecordStore.Proofs.Store.Selection

/-!
# The two ways to run a query

What each strategy fetches from a store, said as a list (`Reader.fetchByIds_eq`,
`Reader.fetches_byQuery`), and that they agree (`Reader.strategies_agree`): looking records up by
identifiers finds those of the streamed records whose keys are asked for, and the very same list
where the identifiers are those of all records in the scope, in the order of the store. They part
only at limits that no list can reach, which are refused where records are looked up
(`Reader.strategies_differ`).
-/

namespace RecordStore

variable {σ α : Type}

/-! ## Keys of identifiers -/

/-- A name that was taken from an identifier is not empty. -/
theorem Datum.ne_empty_of_keyName {id : Datum} {name : String} (h : id.keyName = .ok name) :
    name ≠ "" := by
  have hchecked (text : String) (hok : (if text = "" then
      .error (.query .emptyIdentifier .null) else pure text : Except Error String) = .ok name) :
      name ≠ "" := by
    split at hok
    · cases hok
    · next hne =>
      cases hok
      exact hne
  -- Whatever the identifier is, its text is checked last.
  unfold keyName at h
  dsimp only at h
  split at h
  all_goals
    obtain ⟨text, -, hok⟩ := Result.bind_eq_ok.mp h
    exact hchecked text hok

namespace Layout

/-- The key of an identifier with a name: its own link, below the parent of the layout. -/
theorem keyOf_eq_ok {l : Layout} {id : Datum} {key : Key} :
    l.keyOf id = .ok key ↔ ∃ name, id.keyName = .ok name ∧
      key.kind = .string l.kind ∧ key.name = .string name ∧
        key.above = match l.parent with
          | some p => p.own :: p.above
          | none => [] := by
  rw [keyOf, Result.bind_eq_ok]
  refine exists_congr fun name => and_congr_right fun hname => ?_
  have hkind := Json.isTruthy_string l.kind_ne_empty
  have htext := Json.isTruthy_string (Datum.ne_empty_of_keyName hname)
  unfold Key.under
  rw [Step.make, dif_pos hkind, dif_pos htext]
  obtain ⟨⟨kind, own, _, _⟩, above⟩ := key
  constructor
  · intro h
    cases h
    exact ⟨rfl, rfl, rfl⟩
  · rintro ⟨rfl, rfl, rfl⟩
    rfl

/-- An identifier with a name has a key. -/
theorem exists_keyOf {l : Layout} {id : Datum} {name : String} (h : id.keyName = .ok name) :
    ∃ key, l.keyOf id = .ok key := by
  have hkind := Json.isTruthy_string l.kind_ne_empty
  have htext := Json.isTruthy_string (Datum.ne_empty_of_keyName h)
  exact ⟨⟨⟨_, _, hkind, htext⟩, _⟩, keyOf_eq_ok.mpr ⟨name, h, rfl, rfl, rfl⟩⟩

/-- The key of an identifier lies in the scope of the layout. -/
theorem inScope_keyOf {l : Layout} {id : Datum} {r : Record} (h : l.keyOf id = .ok r.key) :
    Store.inScope { kind := l.kind, ancestor := l.parent } r = true := by
  obtain ⟨name, -, hkind, -, habove⟩ := keyOf_eq_ok.mp h
  rw [Store.inScope, Bool.and_eq_true]
  refine ⟨decide_eq_true hkind, ?_⟩
  cases hparent : l.parent with
  | none => rfl
  | some p =>
    rw [hparent] at habove
    simp [Key.descendsFrom, Key.ancestors, habove, Key.ancestorsOf]

/-- Identifiers with names have keys. -/
theorem exists_keys {l : Layout} {ids : List Datum}
    (h : ∀ id ∈ ids, ∃ name, id.keyName = .ok name) : ∃ keys, ids.mapM l.keyOf = .ok keys := by
  induction ids with
  | nil => exact ⟨[], rfl⟩
  | cons id rest ih =>
    obtain ⟨⟨name, hname⟩, hrest⟩ := List.forall_mem_cons.mp h
    obtain ⟨keys, hkeys⟩ := ih hrest
    obtain ⟨key, hkey⟩ := exists_keyOf (l := l) hname
    refine ⟨key :: keys, Result.mapM_eq_ok.mpr ?_⟩
    exact .cons hkey (Result.mapM_eq_ok.mp hkeys)

/-- A key is among the keys of some identifiers as often as it is the key of one. -/
theorem count_keys {l : Layout} {ids : List Datum} {keys : List Key}
    (h : ids.mapM l.keyOf = .ok keys) (key : Key) :
    keys.count key = ids.countP fun id => (l.keyOf id).toOption = some key := by
  have hkeys := Result.mapM_eq_ok.mp h
  clear h
  induction hkeys with
  | nil => rfl
  | cons hid _ ih =>
    rw [List.count_cons, List.countP_cons, ih, hid]
    simp [Except.toOption]

/-- A key that some identifiers have is the key of one of them. -/
theorem exists_id_of_mem_keys {l : Layout} {ids : List Datum} {keys : List Key}
    (h : ids.mapM l.keyOf = .ok keys) {key : Key} (hkey : key ∈ keys) :
    ∃ id, l.keyOf id = .ok key := by
  rw [Result.mapM_eq_ok_iff_map] at h
  have hmem : Except.ok key ∈ ids.map l.keyOf := by
    rw [h]
    exact List.mem_map_of_mem hkey
  obtain ⟨id, -, hid⟩ := List.mem_map.mp hmem
  exact ⟨id, hid⟩

end Layout

/-! ## Matching records in memory -/

/-- The records that a predicate holds of, each asked in turn until one cannot be answered. -/
def Predicate.choose (c : Conversion) (p : Predicate) : List Record → Except Error (List Record)
  | [] => .ok []
  | r :: rest => do
    let holds ← p.evaluate c r
    let others ← choose c p rest
    return if holds then r :: others else others

/-- A predicate that answers for every record chooses those that it accepts. -/
theorem Predicate.choose_eq_filter {c : Conversion} {p : Predicate} {accepts : Record → Bool}
    (haccepts : ∀ r, p.evaluate c r = .ok (accepts r)) (records : List Record) :
    p.choose c records = .ok (records.filter accepts) := by
  induction records with
  | nil => rfl
  | cons r rest ih =>
    rw [choose, haccepts, ih, List.filter_cons]
    rfl

/-- A matcher that is handed on from record to record selects those that its predicate chooses. -/
theorem Matcher.select_of_prepares {c : Conversion} {tree : MatchTree} {p : Predicate}
    (h : tree.Prepares c p) (records : List Record) : select ⟨c, tree⟩ records = p.choose c records := by
  induction records generalizing tree with
  | nil => rfl
  | cons r rest ih =>
    obtain ⟨next, hnext, htest⟩ := test_of_prepares h (some r)
    have hanswer : p.evaluate? c (some r) = p.evaluate c r := rfl
    rw [select, htest, hanswer, Predicate.choose]
    simp only [ih hnext]

/-! ## Handing out -/

/-- A scan hands out some records, one after the other, and then says that no other is left. -/
inductive Scan.Yields (b : Backend σ) : Scan → σ → List Record → Prop
  | listed (records : List Record) (w : σ) : Yields b (.listed records) w records
  | streamed {s s' : Stream} {w w' : σ} {records : List Record} (h : s.Yields b w records s' w') :
      Yields b (.streamed s) w records

/-- A scan of no records ends. -/
theorem Scan.Yields.next?_nil {b : Backend σ} {scan : Scan} {w : σ} (h : scan.Yields b w []) :
    ∃ scan' w', scan.next? b w = (.ok none, scan', w') := by
  obtain _ | ⟨⟨hnext⟩⟩ := h
  · exact ⟨.listed [], w, rfl⟩
  · exact ⟨_, _, by rw [next?, hnext]⟩

/-- A scan hands out its first record, and goes on with the others. -/
theorem Scan.Yields.next?_cons {b : Backend σ} {scan : Scan} {w : σ} {r : Record} {rest : List Record}
    (h : scan.Yields b w (r :: rest)) :
    ∃ scan' w', scan.next? b w = (.ok (some r), scan', w') ∧ scan'.Yields b w' rest := by
  obtain _ | ⟨_ | ⟨hnext, hothers⟩⟩ := h
  · exact ⟨.listed rest, w, rfl, .listed rest w⟩
  · exact ⟨_, _, by rw [next?, hnext], .streamed hothers⟩

/-! ## The strategies -/

namespace Reader

variable {reader : Reader α} {p : PreparedQuery} {f : Filter} {store : Store}

/-- The native query of a query whose predicate has become a filter. -/
def native (reader : Reader α) (p : PreparedQuery) (f : Filter) : NativeQuery :=
  ⟨reader.layout.kind, f, p.query.orderBy, p.query.effectiveLimit.map Int.ofNat,
    reader.layout.parent⟩

/-- A predicate that translates gives a query of the store. -/
theorem nativeQuery_eq (hfilter : Filter.ofPredicate reader.conversion p.predicate = .ok f) :
    reader.nativeQuery p = .ok (reader.native p f) :=
  Result.bind_eq_ok.mpr ⟨f, hfilter, rfl⟩

/-- The native query keeps the limit. -/
theorem effectiveLimit_native (reader : Reader α) (p : PreparedQuery) (f : Filter) :
    (reader.native p f).effectiveLimit = p.query.effectiveLimit := by
  rw [NativeQuery.effectiveLimit, native]
  cases hlimit : p.query.effectiveLimit with
  | none => rfl
  | some n =>
    have hpositive : 0 < n := pos_of_limit hlimit
    simp [hpositive]

/-- A fetch gives some records: it succeeds, and then hands them out until none is left. -/
def Fetches (b : Backend σ) (outcome : Outcome σ Scan) (records : List Record) : Prop :=
  ∃ scan w, outcome = (.ok scan, w) ∧
    ∀ fuel, records.length < fuel → (scan.drain b fuel w).1 = .ok records

/-- A scan that yields some records is a fetch of them. -/
theorem fetches_of_yields {b : Backend σ} {scan : Scan} {w : σ} {records : List Record}
    (h : scan.Yields b w records) : Fetches b (.ok scan, w) records := by
  refine ⟨scan, w, rfl, fun fuel hfuel => ?_⟩
  induction records generalizing fuel scan w with
  | nil =>
    obtain ⟨fuel, rfl⟩ : ∃ n, fuel = n + 1 := ⟨fuel - 1, by omega⟩
    obtain ⟨scan', w', hnext⟩ := h.next?_nil
    rw [Scan.drain, hnext]
  | cons r rest ih =>
    obtain ⟨fuel, rfl⟩ : ∃ n, fuel = n + 1 := ⟨fuel - 1, by omega⟩
    obtain ⟨scan', w', hnext, hothers⟩ := h.next?_cons
    obtain ⟨after, hdrained⟩ : ∃ after, scan'.drain b fuel w' = (.ok rest, after) :=
      ⟨_, Prod.ext (ih hothers fuel (Nat.lt_of_succ_lt_succ hfuel)) rfl⟩
    rw [Scan.drain, hnext]
    simp only [hdrained]

/-- Nothing is selected by a filter that nothing passes. -/
theorem selection_of_matchesNothing {q : NativeQuery} (h : q.matchesNothing)
    (records : List Record) : Store.selection q records = [] := by
  have hnone : (fun r => q.filter.accepts r) = fun _ => false := by
    funext r
    exact Filter.accepts_of_isNothing h
  rw [← List.length_eq_zero_iff, ← Nat.le_zero_eq, Store.selection]
  refine Nat.le_trans (length_cut_le _ _) ?_
  rw [(Record.sortBy_perm _ _).length_eq, hnone]
  simp

/-- Streaming gives a scan of what the native query selects. -/
theorem yields_byQuery (hfilter : Filter.ofPredicate reader.conversion p.predicate = .ok f)
    (hlength : store.records.length < 10 ^ Number.maxDigits) :
    ∃ scan w, reader.fetchByQuery Store.backend p store = (.ok scan, w) ∧
      scan.Yields Store.backend w (Store.selection (reader.native p f) store.records) := by
  rw [fetchByQuery, nativeQuery_eq hfilter]
  cases hnothing : (reader.native p f).matchesNothing with
  | true =>
    -- The answer is known without a request.
    rw [selection_of_matchesNothing hnothing]
    exact ⟨.listed [], store, by simp only [hnothing, if_true], .listed [] store⟩
  | false =>
    have hselect : Store.select store.records (reader.native p f) =
        .ok (Store.selection (reader.native p f) store.records) :=
      Store.select_eq_ok.mpr ⟨fun r _ _ => Filter.evaluates_ofPredicate hfilter r, rfl⟩
    have hsize : (0 : Int) < reader.config.pageSize :=
      Int.natCast_pos.mpr reader.config.pageSize_pos
    obtain ⟨s, w, hopen, hyields⟩ := Store.yields_backend hselect hsize hlength
    refine ⟨.streamed s, w, ?_, .streamed hyields⟩
    simp only [hnothing, hopen]
    rfl

/-- Streaming fetches what the native query selects. -/
theorem fetches_byQuery (hfilter : Filter.ofPredicate reader.conversion p.predicate = .ok f)
    (hlength : store.records.length < 10 ^ Number.maxDigits) :
    Fetches Store.backend (reader.fetchByQuery Store.backend p store)
      (Store.selection (reader.native p f) store.records) := by
  obtain ⟨scan, w, hfetch, hyields⟩ := yields_byQuery hfilter hlength
  rw [hfetch]
  exact fetches_of_yields hyields

/-- A list of records is cut to a limit, unless the limit is one that no list can reach. -/
theorem truncate_eq (limit : Option Nat) (records : List Record) :
    truncate limit records =
      if limit.all (· ≤ maxLimit) then .ok (cut limit records)
      else .error (.badValue .limitTooLarge) := by
  cases limit with
  | none => rfl
  | some n => simp [truncate, cut]

/-- The records of some slots that the predicate accepts, sorted and cut to the limit. -/
theorem selectSlots_eq (hfilter : Filter.ofPredicate reader.conversion p.predicate = .ok f)
    (slots : List (Option Record)) :
    reader.selectSlots p slots = truncate p.query.effectiveLimit (Record.sortBy p.query.orderBy
      ((slots.filterMap id).filter fun r => f.accepts r)) := by
  have hprepare : Matcher.prepare p.predicate reader.conversion =
      .ok ⟨reader.conversion, .ofPredicate p.predicate⟩ :=
    Matcher.prepare_eq_ok.mpr ⟨Filter.checkDepth_of_ofPredicate hfilter, rfl⟩
  rw [selectSlots]
  rw [hprepare]
  obtain ⟨hempty, rfl⟩ | ⟨hempty, -, hnode⟩ := Filter.ofPredicate_eq_ok.mp hfilter
  · -- A predicate without parts is not evaluated at all.
    have hall : (fun r => Filter.everything.accepts r) = fun _ => true := by
      funext r
      rfl
    rw [hall, List.filter_true]
    simp only [bind, Except.bind, hempty, if_true, pure, Except.pure]
  · have hfound := (Matcher.select_of_prepares
      (MatchTree.prepares_ofPredicate reader.conversion p.predicate) (slots.filterMap id)).trans
        (Predicate.choose_eq_filter (fun r => (Filter.evaluate_ofNode hnode r).1) _)
    simp only [bind, Except.bind, hempty, Bool.false_eq_true, if_false, hfound]

/-- Looking up fetches the records of the keys that the predicate accepts. -/
theorem fetchByIds_eq (store : Store)
    (hfilter : Filter.ofPredicate reader.conversion p.predicate = .ok f) {keys : List Key}
    (hkeys : p.query.ids.mapM reader.layout.keyOf = .ok keys) :
    reader.fetchByIds Store.backend p store =
      (truncate p.query.effectiveLimit (Record.sortBy p.query.orderBy
        ((keys.filterMap store.get?).filter fun r => f.accepts r)),
        { store with lookups := store.lookups + 1 }) := by
  have hslots : (keys.map store.get?).filterMap id = keys.filterMap store.get? := by
    rw [List.filterMap_map]
    rfl
  have hselected := selectSlots_eq hfilter (keys.map store.get?)
  rw [hslots] at hselected
  rw [fetchByIds, hkeys]
  simp only [Store.backend, Store.lookup, hselected]

/-- Without a limit, looking up fetches every record that streaming fetches as often as its key is
asked for, and nothing else. -/
theorem count_fetchByIds {ids : List Datum} {keys : List Key}
    (hkeys : ids.mapM reader.layout.keyOf = .ok keys) (hlimit : p.query.effectiveLimit = none)
    (r : Record) :
    (Record.sortBy p.query.orderBy
        ((keys.filterMap store.get?).filter fun r => f.accepts r)).count r =
      if r ∈ Store.selection (reader.native p f) store.records then
        ids.countP fun id => (reader.layout.keyOf id).toOption = some r.key
      else 0 := by
  have hnative : (reader.native p f).effectiveLimit = none := by
    rw [effectiveLimit_native, hlimit]
  have hmem : r ∈ Store.selection (reader.native p f) store.records ↔ _ :=
    Store.mem_selection hnative
  rw [(Record.sortBy_perm _ _).count_eq, ← Layout.count_keys hkeys r.key]
  cases haccepts : f.accepts r with
  | false =>
    have hunselected : r ∉ Store.selection (reader.native p f) store.records := by
      intro h
      exact absurd (haccepts.symm.trans (hmem.mp h).2) (by decide)
    rw [if_neg hunselected, List.count_eq_zero]
    intro h
    exact absurd (haccepts.symm.trans (List.mem_filter.mp h).2) (by decide)
  | true =>
    have hkept : ((keys.filterMap store.get?).filter fun r => f.accepts r).count r =
        (keys.filterMap store.get?).count r := List.count_filter haccepts
    rw [hkept, Store.count_found]
    by_cases hstored : r ∈ store.records
    · rw [if_pos hstored]
      split
      · rfl
      · next hunselected =>
        -- The key of an identifier would put the record in the scope.
        rw [List.count_eq_zero]
        intro hkey
        obtain ⟨id, hid⟩ := Layout.exists_id_of_mem_keys hkeys hkey
        exact hunselected (hmem.mpr ⟨⟨hstored, Layout.inScope_keyOf hid⟩, haccepts⟩)
    · rw [if_neg hstored, if_neg fun h => hstored (hmem.mp h).1.1]

/-- The two strategies agree. Streaming fetches what the native query selects. Without a limit,
looking records up by identifiers fetches those of the streamed records whose keys are asked for,
each as often as it is asked for, and nothing else. And where the identifiers are those of all
records in the scope, in the order of the store, both fetch the same list, for every ordering and
every limit that a list can reach; beyond it, only looking up is refused. The store may hold no more
records than a cursor can count. -/
theorem strategies_agree (reader : Reader α) (query : RecordQuery) (store : Store)
    (hfilter : Filter.ofPredicate reader.conversion (reader.prepare query).predicate = .ok f)
    (hlength : store.records.length < 10 ^ Number.maxDigits) :
    (let unlimited := reader.prepare { query with limit := none }
      let streamed := Store.selection (reader.native unlimited f) store.records
      Fetches Store.backend (reader.fetchByQuery Store.backend unlimited store) streamed ∧
        ∀ ids, (∀ id ∈ ids, ∃ name, id.keyName = .ok name) →
          ∃ found w, reader.fetchByIds Store.backend
              (reader.prepare { query with ids := ids, limit := none }) store = (.ok found, w) ∧
            ∀ r, found.count r =
              if r ∈ streamed then
                ids.countP fun id => (reader.layout.keyOf id).toOption = some r.key
              else 0) ∧
    ∀ ids, (ids.map reader.layout.keyOf =
        (store.records.filter
          (Store.inScope { kind := reader.layout.kind, ancestor := reader.layout.parent })).map
            fun r => .ok r.key) →
      ∀ orderBy limit,
        let p := reader.prepare { query with ids := ids, orderBy := orderBy, limit := limit }
        let selected := Store.selection (reader.native p f) store.records
        (∃ w, reader.fetchByIds Store.backend p store =
            (if p.query.effectiveLimit.all (· ≤ maxLimit) then .ok selected
              else .error (.badValue .limitTooLarge), w)) ∧
          Fetches Store.backend (reader.fetchByQuery Store.backend p store) selected := by
  constructor
  · refine ⟨fetches_byQuery hfilter hlength, fun ids hids => ?_⟩
    obtain ⟨keys, hkeys⟩ := Layout.exists_keys (l := reader.layout) hids
    let p := reader.prepare { query with ids := ids, limit := none }
    have hfound := fetchByIds_eq (p := p) store hfilter hkeys
    exact ⟨_, _, hfound, count_fetchByIds hkeys rfl⟩
  · intro ids hids orderBy limit p selected
    -- The filter depends neither on the ordering nor on the limit of the query.
    let inside := store.records.filter
      (Store.inScope { kind := reader.layout.kind, ancestor := reader.layout.parent })
    have hkeys : ids.mapM reader.layout.keyOf = .ok (inside.map Record.key) := by
      rw [Result.mapM_eq_ok_iff_map, List.map_map]
      exact hids
    have hfound := fetchByIds_eq (p := p) store hfilter hkeys
    have hselected : selected = cut p.query.effectiveLimit (Record.sortBy p.query.orderBy
        (inside.filter fun r => f.accepts r)) :=
      congrArg (cut · _) (effectiveLimit_native reader p f)
    rw [Store.found_of_stored fun r hr => (List.mem_filter.mp hr).1, truncate_eq,
      ← hselected] at hfound
    exact ⟨⟨_, hfound⟩, fetches_byQuery hfilter hlength⟩

/-- Three records, two of which the predicate accepts: all named in the order of the store, and one
of them named twice beside one that is missing. -/
theorem strategies_agree_marked :
    let marked (key : Key) (mark : String) : Record := ⟨key, [("mark", .string mark)], []⟩
    let a := marked ⟨⟨.string "Row", .string "a", rfl, rfl⟩, []⟩ "x"
    let b := marked ⟨⟨.string "Row", .string "b", rfl, rfl⟩, []⟩ "y"
    let c := marked ⟨⟨.string "Row", .string "c", rfl, rfl⟩, []⟩ "x"
    let store := Store.ofRecords [a, b, c]
    let layout : Layout := ⟨"Row", [.ofField "mark" .string "mark"], "id", none, by decide⟩
    let reader : Reader Record := ⟨.plain, .default, layout, .default⟩
    let query : RecordQuery := { predicate := .node .all [⟨.text "mark", .equal, .text "x"⟩] [] }
    let repeated := { query with ids := [.text "c", .text "d", .text "c"], limit := none }
    let latest : RecordQuery :=
      { query with
        ids := [.text "a", .text "b", .text "c"]
        orderBy := [⟨"mark", .descending⟩]
        limit := some 1 }
    (∃ found w,
        reader.fetchByIds Store.backend (reader.prepare repeated) store = (.ok found, w) ∧
          found.count c = 2) ∧
      (∃ w, reader.fetchByIds Store.backend (reader.prepare latest) store = (.ok [a], w)) ∧
      Fetches Store.backend (reader.fetchByQuery Store.backend (reader.prepare latest) store)
        [a] := by
  intro marked a b c store layout reader query repeated latest
  have hlength : store.records.length < 10 ^ Number.maxDigits :=
    Nat.lt_trans (by decide : 3 < Number.maxDigits) (Nat.lt_pow_self (by decide))
  obtain ⟨⟨-, hcounted⟩, hsame⟩ := strategies_agree
    (f := .property (.text "mark") (.known .equal) (.string "x")) reader query store rfl hlength
  constructor
  · have hnamed : ∀ id ∈ repeated.ids, ∃ name, id.keyName = .ok name := by
      simp only [repeated, List.forall_mem_cons]
      exact ⟨⟨"c", rfl⟩, ⟨"d", rfl⟩, ⟨"c", rfl⟩, List.forall_mem_nil _⟩
    obtain ⟨found, w, hfound, hcount⟩ := hcounted repeated.ids hnamed
    exact ⟨found, w, hfound, (hcount c).trans rfl⟩
  · -- The two records are equal on the column, and stay as they are.
    have hsorted : Record.sortBy latest.orderBy [a, c] = [a, c] := by
      rw [Record.sortBy, if_neg (by decide)]
      exact List.mergeSort_of_pairwise (by decide)
    have hselected : Store.selection
        (reader.native (reader.prepare latest)
          (.property (.text "mark") (.known .equal) (.string "x"))) store.records = [a] :=
      congrArg (List.take 1) hsorted
    exact hselected ▸ hsame latest.ids rfl latest.orderBy latest.limit

/-- A limit that no list can reach, over a store with one record that is asked for by its identifier:
looking up is refused, and streaming fetches the record. -/
theorem strategies_differ :
    let a : Record := ⟨⟨⟨.string "Row", .string "a", rfl, rfl⟩, []⟩, [], []⟩
    let store := Store.ofRecords [a]
    let layout : Layout := ⟨"Row", [], "id", none, by decide⟩
    let reader : Reader Record := ⟨.plain, .default, layout, .default⟩
    let p := reader.prepare { ids := [.text "a"], limit := some (2 ^ 63) }
    p.query.ids.map reader.layout.keyOf = store.records.map (fun r => .ok r.key) ∧
      (reader.fetchByIds Store.backend p store).1 = .error (.badValue .limitTooLarge) ∧
      Fetches Store.backend (reader.fetchByQuery Store.backend p store) [a] := by
  intro a store layout reader p
  have hfilter : Filter.ofPredicate reader.conversion p.predicate = .ok .everything := rfl
  have hkeys : p.query.ids.mapM reader.layout.keyOf = .ok [a.key] := rfl
  have hlength : store.records.length < 10 ^ Number.maxDigits :=
    Nat.lt_trans (by decide : 1 < Number.maxDigits) (Nat.lt_pow_self (by decide))
  refine ⟨rfl, ?_, fetches_byQuery hfilter hlength⟩
  rw [fetchByIds_eq store hfilter hkeys, truncate_eq, if_neg (by decide)]

end Reader

end RecordStore
