import RecordStore.Proofs.Plan.Answer
import RecordStore.Storage

/-!
# Reading from a storage

A single record is read as a query for its identifier would read it, lifecycle aside
(`Storage.take_eq_read`), and the index lists the identifiers of what is stored, in the order of the
store (`Storage.index_eq`).
-/

namespace RecordStore

variable {σ α : Type}

namespace Reading

variable {reader : Reader α} {b : Backend σ}

/-- What a run gives that has one answer: a failure, or a record, or none. -/
def single : Except Error (Option α) → List α × Option Error
  | .error e => ([], some e)
  | .ok found => (found.toList, none)

/-- What records are decoded to and cut to a mask, up to the first one that cannot be decoded, and its
failure. -/
def decodeAll (codec : Codec α) (mask : FieldMask) : List Record → List α × Option Error
  | [] => ([], none)
  | r :: rest =>
    match codec.decode r with
    | .error e => ([], some e)
    | .ok a =>
      match decodeAll codec mask rest with
      | (others, failure) => (codec.mask mask a :: others, failure)

/-- A run that is under way decodes what its scan hands out. -/
theorem take_opened {scan : Scan} {w : σ} {records : List Record} (h : scan.Yields b w records)
    (mask : FieldMask) (count : Nat) :
    (take reader b count (.opened mask scan) w).1 = decodeAll reader.codec mask (records.take count) := by
  induction count generalizing scan w records with
  | zero => rfl
  | succ count ih =>
    cases records with
    | nil =>
      obtain ⟨scan', w', hnext⟩ := h.next?_nil
      rw [take, next?, advance, hnext]
      rfl
    | cons r rest =>
      obtain ⟨scan', w', hnext, hothers⟩ := h.next?_cons
      rw [take, next?, advance, hnext, List.take_succ_cons, decodeAll]
      cases hdecode : reader.codec.decode r with
      | error e => simp only [hdecode]
      | ok a =>
        -- The run after it is whatever it is; only what it gives is known.
        obtain ⟨after, htaken⟩ : ∃ after, take reader b count (.opened mask scan') w' =
            (decodeAll reader.codec mask (rest.take count), after) := ⟨_, Prod.ext (ih hothers) rfl⟩
        simp only [hdecode, htaken]

/-- What a run gives, at most so many records of it, by the answer to its query. -/
def outcome (codec : Codec α) (mask : FieldMask) : Nat → Except Error (List Record) → List α × Option Error
  -- Nothing is asked before the first record is.
  | 0, _ => ([], none)
  | _ + 1, .error e => ([], some e)
  | count + 1, .ok records => decodeAll codec mask (records.take (count + 1))

/-- A run that has not begun gives what its fetch delivers. -/
theorem take_delivered {reader : Reader α} {p : PreparedQuery} {store : Store}
    {answer : Except Error (List Record)}
    (h : Reader.Delivers Store.backend (reader.fetch Store.backend p store) answer) (count : Nat) :
    (take reader Store.backend count (.unopened p) store).1 =
      outcome reader.codec p.query.mask count answer := by
  cases count with
  | zero => rfl
  | succ count =>
    cases answer with
    | error e =>
      obtain ⟨w, hfetch⟩ := h
      rw [take, next?, hfetch]
      rfl
    | ok records =>
      obtain ⟨scan, w, hfetch, hyields⟩ := h
      -- The first call opens the scan, and the others go on with it.
      have hbegun : take reader Store.backend (count + 1) (.unopened p) store =
          take reader Store.backend (count + 1) (.opened p.query.mask scan) w := by
        simp only [take, next?, hfetch]
      rw [hbegun, take_opened hyields]
      rfl

/-- Records that can be decoded are, without a failure. -/
theorem decodeAll_of_decoded {codec : Codec α} {records : List Record} {decoded : List α}
    (h : List.Forall₂ (fun r a => codec.decode r = .ok a) records decoded) (mask : FieldMask) :
    decodeAll codec mask records = (decoded.map (codec.mask mask), none) := by
  induction h with
  | nil => rfl
  | cons hfirst _ ih => simp only [decodeAll, hfirst, ih, List.map_cons]

/-- Decoding fails if one of the records cannot be decoded. -/
theorem decodeAll_fails {codec : Codec α} {records : List Record} {r : Record} (hr : r ∈ records)
    {e : Error} (hdecode : codec.decode r = .error e) (mask : FieldMask) :
    ∃ e, (decodeAll codec mask records).2 = some e := by
  induction records with
  | nil => cases hr
  | cons first rest ih =>
    rw [decodeAll]
    cases hfirst : codec.decode first with
    | error e => exact ⟨e, rfl⟩
    | ok a =>
      have hmem : r ∈ rest := by
        obtain rfl | hmem := List.mem_cons.mp hr
        · rw [hdecode] at hfirst
          cases hfirst
        · exact hmem
      exact ih hmem

end Reading

namespace Storage

variable {s : Storage α} {store : Store}

/-- A query without a predicate stays without one, where lifecycle is not looked at. -/
theorem prepare_unfiltered (s : Storage α) (ids : List Datum) (mask : FieldMask) :
    s.unfiltered.prepare { ids, mask } = ⟨{ ids, mask }, .everything⟩ := rfl

/-- What a storage finds under an identifier is what the store holds under its key. -/
theorem find_eq (s : Storage α) (store : Store) (id : Datum) :
    s.find Store.backend id store =
      match s.layout.keyOf id with
      | .error e => (.error e, store)
      | .ok key => (.ok (key, store.get? key), { store with lookups := store.lookups + 1 }) := by
  rw [find]
  cases s.layout.keyOf id <;> rfl

/-- A read fails if its identifier has no key. -/
theorem read_of_keyOf_error {id : Datum} {e : Error} (hkey : s.layout.keyOf id = .error e)
    (store : Store) (mask : FieldMask) :
    (s.read Store.backend id mask store).1 = .error e := by
  rw [read, find_eq, hkey]

/-- A read gives the record under the key of its identifier, decoded and masked. -/
theorem read_of_keyOf {id : Datum} {key : Key} (hkey : s.layout.keyOf id = .ok key)
    (store : Store) (mask : FieldMask) :
    (s.read Store.backend id mask store).1 =
      match store.get? key with
      | none => .ok none
      | some stored =>
        (s.reader.codec.decode stored).map fun a => some (s.reader.codec.mask mask a) := by
  rw [read, find_eq, hkey]
  cases h : store.get? key <;> simp only [h]

/-- A stored record is read under every identifier of its key. -/
theorem read_of_get? {id : Datum} {r : Record} (hkey : s.layout.keyOf id = .ok r.key)
    (hstored : store.get? r.key = some r) (mask : FieldMask) :
    (s.read Store.backend id mask store).1 =
      (s.reader.codec.decode r).map fun a => some (s.reader.codec.mask mask a) := by
  rw [read_of_keyOf hkey, hstored]

/-- The query for one identifier selects what the store holds under its key. Nothing is filtered,
sorted or cut. -/
theorem answer_id (s : Storage α) (store : Store) (id : Datum) (mask : FieldMask) :
    s.unfiltered.answer store (s.unfiltered.prepare { ids := [id], mask }) =
      (s.layout.keyOf id).map fun key => (store.get? key).toList := by
  have hids : RecordQuery.hasIds { ids := [id], mask } = true := rfl
  have hlayout : s.unfiltered.layout = s.layout := rfl
  rw [prepare_unfiltered, Reader.answer, Reader.candidates, if_pos hids, List.mapM_cons, hlayout]
  cases s.layout.keyOf id with
  | error e => rfl
  | ok key =>
    have hall : [key].filterMap store.get? = (store.get? key).toList := by
      rw [List.filterMap_cons]
      cases store.get? key <;> rfl
    exact congrArg Except.ok hall

/-- A record is read as the query for its identifier reads it, where lifecycle is not looked at:
with the same error, or the same record, or none. -/
theorem take_eq_read (s : Storage α) (store : Store) (id : Datum) (mask : FieldMask) (count : Nat) :
    ((Reading.unopened (s.unfiltered.prepare { ids := [id], mask })).take s.unfiltered Store.backend
        (count + 1) store).1 =
      Reading.single (s.read Store.backend id mask store).1 := by
  rw [Reading.take_delivered (Reader.delivers_byIds rfl), answer_id]
  cases hkey : s.layout.keyOf id with
  | error e =>
    rw [read_of_keyOf_error hkey]
    rfl
  | ok key =>
    rw [read_of_keyOf hkey, Except.map]
    cases store.get? key with
    | none => rfl
    | some stored =>
      -- Without the filter the codec is the same.
      have hcodec : s.unfiltered.codec = s.reader.codec := rfl
      simp only [Except.map, Option.toList_some, Reading.outcome, List.take_succ_cons, List.take_nil,
        Reading.decodeAll, hcodec]
      cases s.reader.codec.decode stored <;> rfl

/-- Whether a record lies in the scope of a layout. -/
def InScope (s : Storage α) (r : Record) : Bool :=
  Store.inScope { kind := s.layout.kind, ancestor := s.layout.parent } r

/-- The query without conditions selects all records in the scope of a layout. -/
theorem answer_everything (s : Storage α) (store : Store) :
    s.unfiltered.answer store (s.unfiltered.prepare {}) = .ok (store.records.filter s.InScope) := rfl

/-- The index of a store lists the identifiers of what the records in the scope of the layout are
decoded to, in the order of the store, up to the first that cannot be decoded. -/
theorem index_eq_decodeAll (hlength : store.records.length < 10 ^ Number.maxDigits) (count : Nat) :
    (s.index Store.backend count store).1 =
      match Reading.decodeAll s.reader.codec {} ((store.records.filter s.InScope).take count) with
      | (records, failure) => (records.map s.idOf, failure) := by
  have hdelivers : Reader.Delivers Store.backend
      (s.unfiltered.fetch Store.backend (s.unfiltered.prepare {}) store)
      (s.unfiltered.answer store (s.unfiltered.prepare {})) := Reader.delivers_answer _ hlength
  have hlisted := Reading.take_delivered hdelivers count
  rw [answer_everything] at hlisted
  have houtcome : Reading.outcome s.reader.codec {} count (.ok (store.records.filter s.InScope)) =
      Reading.decodeAll s.reader.codec {} ((store.records.filter s.InScope).take count) := by
    cases count <;> rfl
  obtain ⟨after, htaken⟩ : ∃ after, (Reading.unopened (s.unfiltered.prepare {})).take s.unfiltered
      Store.backend count store = (Reading.decodeAll s.reader.codec {}
        ((store.records.filter s.InScope).take count), after) :=
    ⟨_, Prod.ext (hlisted.trans houtcome) rfl⟩
  rw [index, htaken]

/-- The index of a store lists the identifiers of the records that lie in the scope of the layout, if
they can be decoded, in the order of the store. -/
theorem index_eq {decoded : List α}
    (hdecoded : List.Forall₂ (fun r a => s.reader.codec.decode r = .ok a)
      (store.records.filter s.InScope) decoded)
    (hlength : store.records.length < 10 ^ Number.maxDigits) (count : Nat) :
    (s.index Store.backend count store).1 = ((decoded.take count).map s.idOf, none) := by
  have hmask : s.reader.codec.mask {} = id := rfl
  rw [index_eq_decodeAll hlength, Reading.decodeAll_of_decoded (List.forall₂_take count hdecoded), hmask,
    List.map_id]

/-- The index of a store does not fail whose records of the layout can be decoded. -/
theorem index_succeeds
    (hdecoded : ∀ r ∈ store.records, s.InScope r = true → ∃ a, s.reader.codec.decode r = .ok a)
    (hlength : store.records.length < 10 ^ Number.maxDigits) (count : Nat) :
    (s.index Store.backend count store).1.2 = none := by
  have hall : ∀ r ∈ store.records.filter s.InScope, ∃ a, s.reader.codec.decode r = .ok a := by
    intro r hr
    obtain ⟨hmem, hscope⟩ := List.mem_filter.mp hr
    exact hdecoded r hmem hscope
  obtain ⟨decoded, hlisted⟩ := exists_forall₂ hall
  rw [index_eq hlisted hlength]

/-- The index of a store fails that holds a record of the layout which cannot be decoded. -/
theorem index_fails {r : Record} (hr : r ∈ store.records) (hscope : s.InScope r = true) {e : Error}
    (hdecode : s.reader.codec.decode r = .error e)
    (hlength : store.records.length < 10 ^ Number.maxDigits) {count : Nat}
    (hcount : store.records.length ≤ count) :
    ∃ e, (s.index Store.backend count store).1.2 = some e := by
  have hall : (store.records.filter s.InScope).take count = store.records.filter s.InScope :=
    List.take_of_length_le (Nat.le_trans (List.length_filter_le s.InScope store.records) hcount)
  obtain ⟨e, he⟩ := Reading.decodeAll_fails (List.mem_filter.mpr ⟨hr, hscope⟩) hdecode {}
  refine ⟨e, ?_⟩
  rw [index_eq_decodeAll hlength, hall]
  exact he

end Storage

end RecordStore
