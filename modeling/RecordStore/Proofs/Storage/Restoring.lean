import RecordStore.Proofs.Model.Encoding
import RecordStore.Proofs.Model.Restoring
import RecordStore.Proofs.Storage.Ledger

/-!
# What is stored comes back

An instance that is encoded is decoded as the same instance if it is restorable; if it is not, its
stored form cannot be decoded, and spoils every later run over the records of its kind
(`Model.decode_encode`).
-/

namespace RecordStore.Model

variable {schema : Schema} {registry : Registry} {layout : Layout} {d : Datum}

/-- What is read of a payload is told by the JSON form of the instance. -/
theorem read?_payload (schema : Schema) {bytes : Bytes} (h : payload d = .ok bytes) :
    ∃ j, d.dump = .ok j ∧
      schema.read? bytes = reread? Json.Dialect.strict.maxLevels schema.type j := by
  obtain ⟨j, hj, h⟩ := Result.bind_eq_ok.mp h
  obtain rfl := Except.ok.inj h
  refine ⟨j, hj, ?_⟩
  have hread : Json.readStrict? (Json.write ⟨false, payloadDoubles⟩ j) =
      Json.reread? .strict payloadDouble Json.Dialect.strict.maxLevels j := by
    rw [Json.readStrict?, Json.write, String.toList_ofList]
    exact Json.readChars_writeOnto (rereads_payload .strict) j
  rw [Schema.read?, Text.ofUtf8?_utf8, reread?, ← hread]
  rfl

/-- An instance comes back from its payload if it does so from its JSON form. -/
theorem read?_payload_of_reread? {back : Datum} {j : Json} (hj : d.dump = .ok j)
    (hback : reread? Json.Dialect.strict.maxLevels schema.type j = some back) :
    (payload d).toOption.bind schema.read? = some back := by
  have hbytes : payload d = .ok (Text.utf8 (Json.write ⟨false, payloadDoubles⟩ j)) := by
    rw [payload, hj]
    rfl
  obtain ⟨j', hj', hread⟩ := read?_payload schema hbytes
  cases hj.symm.trans hj'
  rw [hbytes]
  exact hread.trans hback

/-- Reading a payload brings the instance back, as far as it is restorable. -/
theorem restores_read? (hd : schema.type.Holds d) {bytes : Bytes} (h : payload d = .ok bytes) :
    Restores (d.isRestorable 200) (·.same d = true) (schema.read? bytes) := by
  obtain ⟨j, hj, hread⟩ := read?_payload schema h
  rw [hread]
  exact isBroughtBack_of_holds hd 200 j (.inl hj)

/-- An instance of the fields that its schema declares is decoded from its stored form as the same
instance if it is restorable: if its doubles are finite, its whole numbers have at most 4300
digits, and at most 200 levels lie in it. It is then read under its identifiers, and makes no
index fail. If it is not restorable, its stored form cannot be decoded, no read under its
identifiers succeeds, and no index of a store that holds it. -/
theorem decode_encode (hd : schema.type.Holds d) {r : Record} (h : encode registry layout d = .ok r) :
    (d.isRestorable 200 = true → ∃ back, decode schema r = .ok back ∧ back.same d = true ∧
      ∀ (catalog : Catalog) (config : ReadConfig) (idField : String) (store : Store),
        let s := storage catalog schema registry layout config idField
        (∀ id, layout.keyOf id = .ok r.key → store.get? r.key = some r →
          (s.read Store.backend id {} store).1 = .ok (some back)) ∧
        ((∀ other ∈ store.records, other = r ∨ ∃ a, decode schema other = .ok a) →
          store.records.length < 10 ^ Number.maxDigits →
          ∀ count, (s.index Store.backend count store).1.2 = none)) ∧
    (d.isRestorable 200 = false → decode schema r = .error (.codec (.decode r.key.toText)) ∧
      ∀ (catalog : Catalog) (config : ReadConfig) (idField : String) (store : Store),
        let s := storage catalog schema registry layout config idField
        (∀ id mask, layout.keyOf id = .ok r.key → store.get? r.key = some r →
          (s.read Store.backend id mask store).1 = .error (.codec (.decode r.key.toText))) ∧
        (r ∈ store.records → store.records.length < 10 ^ Number.maxDigits →
          ∀ count, store.records.length ≤ count →
            ∃ e, (s.index Store.backend count store).1.2 = some e)) := by
  obtain ⟨hkey, hpayload⟩ := of_encode h
  -- Whether the payload is read back decides both parts.
  have hrestores := restores_read? hd hpayload
  constructor
  · intro hrestorable
    rw [hrestorable] at hrestores
    obtain ⟨back, hback, hsame⟩ := hrestores
    have hdecode : decode schema r = .ok back := by
      rw [decode, hback]
    refine ⟨back, hdecode, hsame, ?_⟩
    intro catalog config idField store s
    constructor
    · intro id hid hstored
      exact (Storage.read_of_get? (s := s) hid hstored {}).trans (congrArg (Except.map _) hdecode)
    · intro hothers hlength count
      refine Storage.index_succeeds (s := s) (fun other hmem _ => ?_) hlength count
      obtain rfl | hother := hothers other hmem
      · exact ⟨back, hdecode⟩
      · exact hother
  · intro hrestorable
    rw [hrestorable] at hrestores
    have hdecode : decode schema r = .error (.codec (.decode r.key.toText)) := by
      rw [decode, hrestores]
    refine ⟨hdecode, ?_⟩
    intro catalog config idField store s
    constructor
    · intro id mask hid hstored
      exact (Storage.read_of_get? (s := s) hid hstored mask).trans (congrArg (Except.map _) hdecode)
    · intro hmem hlength count hcount
      exact Storage.index_fails (s := s) hmem (Layout.inScope_keyOf hkey) hdecode hlength hcount

/-! ## Envelopes -/

/-- What is in an envelope has a name and a size. -/
def innerSchema : Schema := ⟨"Inner", [.mk "name" .text none, .mk "size" .integer none]⟩

/-- Envelopes have a field of every type. -/
def envelopeSchema : Schema := ⟨"Envelope", [.mk "id" .text none, .mk "count" .integer none,
  .mk "ratio" .double none, .mk "flag" .boolean none, .mk "raw" .bytes none,
  .mk "labels" (.list .text) none, .mk "extra" (.map .integer) none,
  .mk "parent" (.optional .text) none, .mk "mode" (.literal [.text "fast", .text "slow"]) none,
  .mk "inner" innerSchema.type none]⟩

/-- The layout of envelopes, without columns. -/
def envelopeLayout : Layout := ⟨"Envelope", [], "id", none, by decide⟩

/-- An envelope with a field of every type. -/
def envelope (ratio : Double) : Datum :=
  .model envelopeSchema.shape [("id", .text "e"), ("count", .integer 1), ("ratio", .double ratio),
    ("flag", .boolean true), ("raw", .bytes [120]), ("labels", .list [.text "a"]),
    ("extra", .ofFields [("k", .integer 1)]), ("parent", .null), ("mode", .text "fast"),
    ("inner", .model innerSchema.shape [("name", .text "n"), ("size", .integer 2)] ["name", "size"])]
    ["id", "count", "ratio", "flag", "raw", "labels", "extra", "parent", "mode", "inner"]

theorem holds_envelope (ratio : Double) : envelopeSchema.type.Holds (envelope ratio) := by
  have hinner : innerSchema.type.Holds
      (.model innerSchema.shape [("name", .text "n"), ("size", .integer 2)] ["name", "size"]) := by
    refine .model _ (by decide) rfl ?_
    exact List.forall_mem_cons.mpr ⟨.text "n", List.forall_mem_cons.mpr ⟨.integer 2, List.forall_mem_nil _⟩⟩
  have hlabels : (FieldType.list .text).Holds (.list [.text "a"]) :=
    .list (List.forall_mem_singleton.mpr (.text "a"))
  have hextra : (FieldType.map .integer).Holds (.ofFields [("k", .integer 1)]) :=
    .map (by decide) (List.forall_mem_singleton.mpr (.integer 1))
  have hmode : (FieldType.literal [.text "fast", .text "slow"]).Holds (.text "fast") :=
    .literal List.mem_cons_self rfl
  refine .model _ (by decide) rfl ?_
  simp only [envelopeSchema, List.zip_cons_cons, List.zip_nil_right, List.forall_mem_cons]
  exact ⟨.text "e", .integer 1, .double ratio, .boolean true, .bytes [120], hlabels, hextra, .null _,
    hmode, hinner, List.forall_mem_nil _⟩

theorem idOf_envelope (ratio : Double) : envelopeLayout.idOf (envelope ratio) = .text "e" := by
  rw [Layout.idOf, Datum.resolve_of_undotted (by decide)]
  rfl

/-- Whatever its ratio is, the envelope is encoded, under the key of its identifier. -/
theorem exists_encode_envelope (ratio : Double) :
    ∃ r, encode .default envelopeLayout (envelope ratio) = .ok r ∧
      envelopeLayout.keyOf (.text "e") = .ok r.key ∧ r.key.toText = "Envelope:e" := by
  obtain ⟨key, hkey, htext⟩ : ∃ key, envelopeLayout.keyOf (.text "e") = .ok key ∧
      key.toText = "Envelope:e" := ⟨_, rfl, rfl⟩
  obtain ⟨bytes, hpayload⟩ : ∃ bytes, payload (envelope ratio) = .ok bytes := ⟨_, rfl⟩
  refine ⟨⟨key, [], bytes⟩, ?_, hkey, htext⟩
  rw [encode, idOf_envelope, hpayload, hkey]
  rfl

/-- The envelope whose ratio is not a number cannot be decoded, under whatever layout it is stored. -/
theorem decode_envelope_nan {r : Record} (hr : encode registry layout (envelope .nan) = .ok r) :
    decode envelopeSchema r = .error (.codec (.decode r.key.toText)) := by
  have hrestores := restores_read? (holds_envelope .nan) (of_encode hr).2
  have hread : envelopeSchema.read? r.payload = none := hrestores
  rw [decode, hread]

/-- The storage of envelopes. -/
def envelopeStorage : Storage Datum :=
  storage [innerSchema, envelopeSchema] envelopeSchema .default envelopeLayout .default "id"

/-- The envelope with a finite ratio comes back, and the one whose ratio is not a number fails every
run. -/
theorem decode_encode_envelope :
    (∃ r back, encode .default envelopeLayout (envelope (.finite false 1022 0)) = .ok r ∧
      decode envelopeSchema r = .ok back ∧ back.same (envelope (.finite false 1022 0)) = true ∧
      (envelopeStorage.read Store.backend (.text "e") {} (.ofRecords [r])).1 = .ok (some back) ∧
      (envelopeStorage.index Store.backend 1 (.ofRecords [r])).1.2 = none) ∧
    ∃ r e, encode .default envelopeLayout (envelope .nan) = .ok r ∧
      (envelopeStorage.read Store.backend (.text "e") {} (.ofRecords [r])).1 =
        .error (.codec (.decode "Envelope:e")) ∧
      (envelopeStorage.index Store.backend 1 (.ofRecords [r])).1.2 = some e := by
  have hheld (r : Record) : (Store.ofRecords [r]).get? r.key = some r :=
    (Store.get?_put_singleton {} r r.key).trans (if_pos rfl)
  have hlength : 1 < 10 ^ Number.maxDigits := Nat.one_lt_pow (by decide) (by decide)
  constructor
  · obtain ⟨r, hr, hkey, -⟩ := exists_encode_envelope (.finite false 1022 0)
    obtain ⟨back, hback, hsame, hruns⟩ := (decode_encode (holds_envelope _) hr).1 rfl
    obtain ⟨hread, hindex⟩ := hruns [innerSchema, envelopeSchema] .default "id" (.ofRecords [r])
    have hothers : ∀ other ∈ (Store.ofRecords [r]).records,
        other = r ∨ ∃ a, decode envelopeSchema other = .ok a :=
      fun other hother => .inl (List.mem_singleton.mp hother)
    exact ⟨r, back, hr, hback, hsame, hread _ hkey (hheld r), hindex hothers hlength 1⟩
  · obtain ⟨r, hr, hkey, htext⟩ := exists_encode_envelope .nan
    obtain ⟨-, hruns⟩ := (decode_encode (holds_envelope _) hr).2 rfl
    obtain ⟨hread, hindex⟩ := hruns [innerSchema, envelopeSchema] .default "id" (.ofRecords [r])
    obtain ⟨e, he⟩ := hindex (List.mem_singleton_self r) hlength 1 le_rfl
    rw [htext] at hread
    exact ⟨r, e, hr, hread _ {} hkey (hheld r), he⟩

/-- The envelope whose ratio is not a number is stored, and cannot be decoded. -/
theorem decode_encode_notANumber : ∃ r,
    encode .default envelopeLayout (envelope .nan) = .ok r ∧
      decode envelopeSchema r = .error (.codec (.decode "Envelope:e")) := by
  obtain ⟨r, hr, -, htext⟩ := exists_encode_envelope .nan
  exact ⟨r, hr, htext ▸ decode_envelope_nan hr⟩

end RecordStore.Model
