import RecordStore.Proofs.Model.Encoding
import RecordStore.Proofs.Model.Masking
import RecordStore.Proofs.Storage.Restoring

/-!
# The identifier of a masked record

A storage that masks with the identifier field `id` reads, with a mask, a record whose identifier is
the one of the whole record if the mask keeps it, and what the mask puts in its place otherwise
(`Model.idOf_read_masked`). Where the mask lists the path of the identifier, or one above it, it is
kept (`keeps_of_prefix`).
-/

namespace RecordStore

/-- A part is kept if a path to it, or to what it is a part of, is. -/
theorem keeps_of_prefix {c : Catalog} {paths : Set (List String)} {d : Datum} {names kept : List String}
    (hkept : kept ∈ paths) (hstart : kept <+: names) (hfields : "model_fields_set" ∉ names) :
    Keeps c paths d names := by
  induction kept generalizing paths d names with
  | nil => exact .listed hkept
  | cons name rest ih =>
    obtain ⟨tail, rfl⟩ := hstart
    by_cases hmodel : c.TakesApart d
    · obtain ⟨shape, fields, given, schema, rfl, -⟩ := hmodel
      have hne := not_or.mp (mt List.mem_cons.mpr hfields)
      cases hfield : Assoc.get? name fields with
      | none => exact .absent hfield (Ne.symm hne.1)
      | some part => exact .inside hfield ⟨rest, hkept⟩ (ih hkept ⟨tail, rfl⟩ hne.2)
    · exact .whole hmodel

/-- A record is read where one is stored under the key of the identifier and can be decoded. -/
theorem Storage.read_eq_some {α : Type} {s : Storage α} {store : Store} {id : Datum} {mask : FieldMask}
    {a : α} :
    (s.read Store.backend id mask store).1 = .ok (some a) ↔ ∃ key stored whole,
      s.layout.keyOf id = .ok key ∧ store.get? key = some stored ∧
      s.reader.codec.decode stored = .ok whole ∧ a = s.reader.codec.mask mask whole := by
  constructor
  · intro h
    -- Each step of a read that fails ends it, and one that finds nothing gives nothing.
    cases hkey : s.layout.keyOf id with
    | error e =>
      rw [read_of_keyOf_error hkey] at h
      cases h
    | ok key =>
      rw [read_of_keyOf hkey] at h
      cases hstored : store.get? key with
      | none =>
        rw [hstored] at h
        cases h
      | some stored =>
        simp only [hstored] at h
        cases hdecode : s.reader.codec.decode stored with
        | error e =>
          rw [hdecode] at h
          cases h
        | ok whole =>
          rw [hdecode] at h
          cases h
          exact ⟨key, stored, whole, rfl, hstored, hdecode, rfl⟩
  · rintro ⟨key, stored, whole, hkey, hstored, hdecode, rfl⟩
    rw [read_of_keyOf hkey]
    simp only [hstored, hdecode]
    rfl

namespace Model

variable {catalog : Catalog} {schema : Schema} {registry : Registry} {layout : Layout}
  {config : ReadConfig}

/-- What is decoded is known, if the models of the schema are. -/
theorem knows_of_decode (hknown : catalog.Describes schema.type) {r : Record} {d : Datum}
    (h : decode schema r = .ok d) : catalog.Knows d := by
  unfold decode at h
  split at h
  · next hread =>
    cases h
    obtain ⟨text, -, hread⟩ := Option.bind_eq_some_iff.mp hread
    obtain ⟨value, -, hread⟩ := Option.bind_eq_some_iff.mp hread
    exact hknown.knows hread
  · cases h

/-- Let a storage read a record, of models that are known. With a mask that lists something it reads
a record too. The identifier of that one is the same if the mask keeps the part at the path of the
identifier; if it does not, it is what the mask puts in the place of that part. -/
theorem idOf_read_masked (hknown : catalog.Describes schema.type) {store : Store} {id d : Datum}
    {mask : FieldMask} (hmask : mask.isEmpty = false)
    (hread : ((storage catalog schema registry layout config "id").read Store.backend id {} store).1 =
      .ok (some d)) :
    ∃ masked,
      ((storage catalog schema registry layout config "id").read Store.backend id mask store).1 =
        .ok (some masked) ∧
      (Keeps catalog (mask.kept "id") d (Datum.pathParts layout.idField) →
        layout.idOf masked = layout.idOf d) ∧
      (¬ Keeps catalog (mask.kept "id") d (Datum.pathParts layout.idField) →
        Replaces catalog (mask.kept "id") d (Datum.pathParts layout.idField) (layout.idOf masked)) := by
  obtain ⟨key, stored, whole, hkey, hstored, hdecode, hwhole⟩ := Storage.read_eq_some.mp hread
  -- The empty mask leaves everything.
  obtain rfl : d = whole := hwhole
  refine ⟨applyMask catalog "id" mask d, Storage.read_eq_some.mpr
    ⟨key, stored, d, hkey, hstored, hdecode, ?_⟩, ?_⟩
  · rw [Codec.mask, hmask]
    rfl
  · exact (masked_applyMask "id" mask (knows_of_decode hknown hdecode)).follow
      (knows_of_decode hknown hdecode) _

/-- An instance that is written is read, cut to the mask, if it comes back from its payload. -/
theorem read_write {record back id : Datum} {key : Key} {columns : List (String × Value)}
    (hid : layout.idOf record = id) (hkey : layout.keyOf id = .ok key)
    (hcolumns : columnValues registry layout record = .ok columns)
    (hback : (payload record).toOption.bind schema.read? = some back) (mask : FieldMask)
    (store : Store) :
    ((storage catalog schema registry layout config "id").read Store.backend id mask
        ((storage catalog schema registry layout config "id").write Store.backend record store).2).1 =
      .ok (some ((codec catalog schema registry layout "id").mask mask back)) := by
  obtain ⟨bytes, hpayload, hread⟩ := Option.bind_eq_some_iff.mp hback
  have hencode : encode registry layout record = .ok ⟨key, columns, bytes⟩ :=
    encode_eq_ok.mpr ⟨hid ▸ hkey, hcolumns, Result.toOption_eq_some.mp hpayload⟩
  have hwritten : ((storage catalog schema registry layout config "id").write Store.backend record
      store).2 = store.put [⟨key, columns, bytes⟩] := by
    -- A single record is encoded and put, and is then found under its key.
    have hall : [record].mapM (storage catalog schema registry layout config "id").reader.codec.encode =
        .ok [⟨key, columns, bytes⟩] :=
      Result.mapM_eq_ok.mpr (.cons hencode .nil)
    rw [Storage.write, Storage.writeAll, hall]
    rfl
  rw [hwritten]
  refine Storage.read_eq_some.mpr ⟨key, ⟨key, columns, bytes⟩, back, hkey, ?_, ?_, rfl⟩
  · rw [Store.get?_put_singleton, if_pos rfl]
  · have hdecode : decode schema ⟨key, columns, bytes⟩ = .ok back := by
      simp only [decode, hread]
    exact hdecode

/-! ## Two records -/

/-- Owners have two parts, which together are identifiers. -/
def ownerSchema : Schema := ⟨"Owner", [.mk "tenant" .text none, .mk "number" .integer none]⟩

/-- Documents have an owner as their identifier. -/
def docSchema : Schema := ⟨"Doc", [.mk "id" ownerSchema.type none]⟩

/-- A document whose identifier is made of two parts. -/
def doc : Datum :=
  docSchema.construct [("id", ownerSchema.construct [("tenant", .text "t"), ("number", .integer 4)])]

/-- The document comes back from its payload. -/
theorem read?_payload_doc : (payload doc).toOption.bind docSchema.read? = some doc :=
  read?_payload_of_reread? rfl rfl

/-- Items have a name, by which they are stored, and a size. -/
def itemSchema : Schema := ⟨"Item", [.mk "name" .text none, .mk "size" .integer none]⟩

/-- An item. -/
def item : Datum := itemSchema.construct [("name", .text "n"), ("size", .integer 2)]

/-- A document whose identifier is a field of an instance, of which the mask lists only that field. -/
theorem idOf_read_masked_nested :
    let layout : Layout := ⟨"Doc", [], "id.tenant", none, by decide⟩
    let s := storage [ownerSchema, docSchema] docSchema .default layout .default "id"
    let store := (s.write Store.backend doc {}).2
    ∃ masked, (s.read Store.backend (.text "t") ⟨["id.tenant"]⟩ store).1 = .ok (some masked) ∧
      layout.idOf masked = layout.idOf doc := by
  intro layout s store
  have hpath : Datum.pathParts layout.idField = ["id", "tenant"] := by
    decide
  have hid : layout.idOf doc = .text "t" := by
    rw [Layout.idOf, Datum.resolve, hpath]
    rfl
  have hread : (s.read Store.backend (.text "t") {} store).1 = .ok (some doc) :=
    read_write hid rfl rfl read?_payload_doc {} {}
  -- The model of the identifier and the one around it are both described.
  have howner : Catalog.Describes [ownerSchema, docSchema] ownerSchema.type := by
    refine .model rfl (fun field hfield => .closed ?_) fun field hfield d hd => ?_
    all_goals
      obtain rfl | hfield := List.mem_cons.mp hfield
    · rfl
    · obtain rfl := List.mem_singleton.mp hfield
      rfl
    · cases hd
    · obtain rfl := List.mem_singleton.mp hfield
      cases hd
  have hknown : Catalog.Describes [ownerSchema, docSchema] docSchema.type := by
    refine .model rfl (fun field hfield => ?_) fun field hfield d hd => ?_
    all_goals
      obtain rfl := List.mem_singleton.mp hfield
    · exact howner
    · cases hd
  have hmask : (⟨["id.tenant"]⟩ : FieldMask).isEmpty = false := rfl
  obtain ⟨masked, hmasked, hkept, -⟩ := idOf_read_masked hknown hmask hread
  refine ⟨masked, hmasked, hkept ?_⟩
  rw [hpath]
  have hlisted : ["id", "tenant"] ∈ (⟨["id.tenant"]⟩ : FieldMask).kept "id" :=
    .inl ⟨"id.tenant", List.mem_singleton_self _, hpath⟩
  exact keeps_of_prefix hlisted List.prefix_rfl (by decide)

/-- A record that is identified by another field than `id` loses its identifier to a mask that does
not list this field. -/
theorem idOf_read_masked_unlisted :
    let layout : Layout := ⟨"Item", [], "name", none, by decide⟩
    let s := storage [itemSchema] itemSchema .default layout .default "id"
    let store := (s.write Store.backend item {}).2
    ∃ masked, (s.read Store.backend (.text "n") {} store).1 = .ok (some item) ∧
      (s.read Store.backend (.text "n") ⟨["size"]⟩ store).1 = .ok (some masked) ∧
      layout.idOf item = .text "n" ∧ layout.idOf masked = .text "" := by
  intro layout s store
  have hpath : Datum.pathParts layout.idField = ["name"] := Text.dottedNames_of_undotted (by decide)
  have hid (d : Datum) : layout.idOf d = d.follow ["name"] := by
    rw [Layout.idOf, Datum.resolve, hpath]
  have hback : (payload item).toOption.bind itemSchema.read? = some item :=
    read?_payload_of_reread? rfl rfl
  have hread (mask : FieldMask) : (s.read Store.backend (.text "n") mask store).1 =
      .ok (some ((codec [itemSchema] itemSchema .default layout "id").mask mask item)) :=
    read_write (hid item) rfl rfl hback mask {}
  have hmasked : applyMask [itemSchema] "id" ⟨["size"]⟩ item = itemSchema.fill [("size", .integer 2)] := by
    -- Sorting does not reduce, and a single path is in order.
    have htree : MaskTree.ofPaths ["size"] = [("size", .leaf)] := by
      rw [MaskTree.ofPaths, List.mergeSort_of_pairwise (by decide)]
      rfl
    rw [applyMask, htree]
    rfl
  refine ⟨itemSchema.fill [("size", .integer 2)], hread {}, (hread ⟨["size"]⟩).trans ?_, hid item,
    hid _⟩
  exact congrArg (Except.ok ∘ some) hmasked

end Model

end RecordStore
