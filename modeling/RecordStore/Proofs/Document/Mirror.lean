import Mathlib.Data.List.Induction
import Mathlib.Data.Set.Function
import RecordStore.Proofs.Document.Collections
import RecordStore.Proofs.Document.Record
import RecordStore.Proofs.Store.Lookup

/-!
# The document backend mirrors a store in memory

Through writing, removing and looking up by key, in any order, a document backend holds the
documents of the records that a store in memory holds after the same calls (`Mirrors`). A lookup
therefore finds the same records, in their plain forms, with one call for each kind among the keys
(`DocumentBackend.lookup_after`). The keys of the calls have to differ in their texts, as these are
the identifiers of the documents.
-/

namespace RecordStore

/-! ## Calls by key -/

/-- A call that names its records by key. -/
inductive KeyedCall
  | put (records : List Record)
  | delete (keys : List Key)
  | lookup (keys : List Key)

namespace KeyedCall

variable {σ : Type}

/-- The records that a call writes. -/
def records : KeyedCall → List Record
  | .put records => records
  | .delete _ | .lookup _ => []

/-- The keys that a call names. -/
def keys : KeyedCall → List Key
  | .put records => records.map Record.key
  | .delete keys | .lookup keys => keys

/-- A call, whatever it answers. -/
def perform (b : Backend σ) : KeyedCall → σ → Outcome σ Unit
  | .put records, w => b.put records w
  | .delete keys, w => b.delete keys w
  | .lookup keys, w =>
    match b.lookup keys w with
    | (slots, w) => (slots.map fun _ => (), w)

/-- Calls one after the other, up to the first that fails. -/
def performAll (b : Backend σ) : List KeyedCall → σ → Outcome σ Unit
  | [], w => (.ok (), w)
  | call :: rest, w =>
    match call.perform b w with
    | (.ok (), w) => performAll b rest w
    | (.error e, w) => (.error e, w)

end KeyedCall

namespace DocumentBackend

variable {δ : Type} {b : DocumentBackend δ}

/-! ## Identifiers by kind -/

/-- A further key goes to the end of its group. -/
theorem groups_append_singleton (keys : List Key) (k : Key) :
    groups (keys ++ [k]) =
      Assoc.put k.kind ((Assoc.get? k.kind (groups keys)).getD [] ++ [k.toText]) (groups keys) := by
  rw [groups, List.foldl_append]
  rfl

/-- There is one group for each kind. -/
theorem nodup_keys_groups (keys : List Key) : (Assoc.keys (groups keys)).Nodup := by
  induction keys using List.reverseRecOn with
  | nil => exact List.nodup_nil
  | append_singleton keys k ih =>
    rw [groups_append_singleton]
    exact Assoc.nodup_keys_put ih _ _

/-- There are groups for the kinds of the keys. -/
theorem mem_keys_groups {keys : List Key} {kind : Json} :
    kind ∈ Assoc.keys (groups keys) ↔ ∃ k ∈ keys, k.kind = kind := by
  induction keys using List.reverseRecOn with
  | nil => simp [groups, Assoc.keys]
  | append_singleton keys k ih =>
    rw [groups_append_singleton, Assoc.mem_keys_put, ih]
    simp only [List.mem_append, List.mem_singleton, or_and_right, exists_or, exists_eq_left]
    rw [or_comm, eq_comm]

/-- A group has the identifiers of the keys of its kind. -/
theorem getD_get?_groups (keys : List Key) (kind : Json) :
    (Assoc.get? kind (groups keys)).getD [] =
      (keys.filter fun k => k.kind = kind).map Key.toText := by
  induction keys using List.reverseRecOn with
  | nil => rfl
  | append_singleton keys k ih =>
    rw [groups_append_singleton, List.filter_append, List.map_append, ← ih]
    by_cases h : k.kind = kind
    · subst h
      rw [Assoc.get?_put_self]
      simp
    · rw [Assoc.get?_put_of_ne (Ne.symm h)]
      simp [h]

/-- A group has the texts of the keys of its kind, in their order. -/
theorem ids_of_mem_groups {keys : List Key} {group : Json × List String}
    (h : group ∈ groups keys) :
    group.2 = (keys.filter fun k => k.kind = group.1).map Key.toText := by
  have hids := Assoc.get?_of_mem (nodup_keys_groups keys) h
  rw [← getD_get?_groups, hids]
  rfl

/-- An identifier stands in the group of a kind exactly if it is that of a key of the kind. -/
theorem exists_mem_groups_iff {keys : List Key} {kind : Json} {id : String} :
    (∃ group ∈ groups keys, group.1 = kind ∧ id ∈ group.2) ↔
      ∃ k ∈ keys, k.kind = kind ∧ k.toText = id := by
  constructor
  · rintro ⟨group, hgroup, rfl, hid⟩
    rw [ids_of_mem_groups hgroup, List.mem_map] at hid
    obtain ⟨k, hk, rfl⟩ := hid
    rw [List.mem_filter, decide_eq_true_iff] at hk
    exact ⟨k, hk.1, hk.2, rfl⟩
  · rintro ⟨k, hk, rfl, rfl⟩
    obtain ⟨group, hgroup, hkind⟩ := List.mem_map.mp (mem_keys_groups.mpr ⟨k, hk, rfl⟩)
    refine ⟨group, hgroup, hkind, ?_⟩
    rw [ids_of_mem_groups hgroup, hkind]
    exact List.mem_map_of_mem (List.mem_filter.mpr ⟨hk, decide_eq_true rfl⟩)

/-- Identifiers that are already there are not added once more. -/
theorem distinct_foldl (ids : List String) {done : List String} (hdone : done.Nodup) :
    let all := ids.foldl (fun done id => if done.contains id then done else done ++ [id]) done
    all.Nodup ∧ ∀ id, id ∈ all ↔ id ∈ done ∨ id ∈ ids := by
  induction ids generalizing done with
  | nil => exact ⟨hdone, fun id => by simp⟩
  | cons first rest ih =>
    by_cases hfirst : first ∈ done
    · have hstep := ih hdone
      simp only [List.foldl_cons, List.contains_iff_mem, if_pos hfirst] at hstep ⊢
      refine ⟨hstep.1, fun id => ?_⟩
      -- An id that is there already adds nothing.
      have hthere : id = first → id ∈ done ∨ id ∈ rest := fun h => .inl (h ▸ hfirst)
      rw [hstep.2, List.mem_cons, or_left_comm, or_iff_right_of_imp hthere]
    · have hlonger : (done ++ [first]).Nodup :=
        List.nodup_append_comm.mp (List.nodup_cons.mpr ⟨hfirst, hdone⟩)
      have hstep := ih hlonger
      simp only [List.foldl_cons, List.contains_iff_mem, if_neg hfirst] at hstep ⊢
      refine ⟨hstep.1, fun id => ?_⟩
      rw [hstep.2, List.mem_cons, List.mem_append, List.mem_singleton, or_assoc]

/-- No id is asked for twice. -/
theorem nodup_distinctIds (ids : List String) : (distinctIds ids).Nodup := by
  rw [distinctIds, Error.sortTexts]
  exact (List.mergeSort_perm _ _).nodup_iff.mpr (distinct_foldl ids List.nodup_nil).1

/-- Every id is asked for. -/
theorem mem_distinctIds {ids : List String} {id : String} : id ∈ distinctIds ids ↔ id ∈ ids := by
  rw [distinctIds, Error.sortTexts, List.mem_mergeSort, (distinct_foldl ids List.nodup_nil).2]
  simp

/-! ## Mirrored stores -/

variable {entry : δ → String → String → Option Document} {known : Set Key} {s : Store} {w : δ}

/-- Under each of the known keys, the collections hold the document of the record that the store
holds, and nothing if it holds none. -/
structure Mirrors (b : DocumentBackend δ) (entry : δ → String → String → Option Document)
    (known : Set Key) (s : Store) (w : δ) : Prop where
  storable : ∀ r ∈ s.records, r.Storable
  entries : ∀ k ∈ known,
    entry w (b.collection k.kind.display) k.toText = (s.get? k).map Record.document

/-- A database without documents mirrors the empty store. -/
theorem mirrors_empty (hempty : ∀ collection id, entry w collection id = none) :
    b.Mirrors entry known {} w where
  storable := nofun
  entries _ _ := hempty _ _

/-- A record that is written stands in both. -/
theorem Mirrors.replace (h : b.Mirrors entry known s w) (hids : Set.InjOn Key.toText known)
    {r : Record} (hr : r.Storable) (hkey : r.key ∈ known) {w' : δ}
    (hentry : ∀ other id, entry w' other id =
      if other = b.collection r.key.kind.display ∧ id = r.key.toText then some r.document
      else entry w other id) :
    b.Mirrors entry known (s.put [r]) w' where
  storable other hother := (Store.mem_put_singleton hother).elim (· ▸ hr) (h.storable other)
  entries k hk := by
    rw [hentry, Store.get?_put_singleton]
    by_cases hsame : r.key = k
    · subst hsame
      rw [if_pos ⟨rfl, rfl⟩, if_pos rfl, Option.map_some]
    · -- Another key has another identifier, in whatever collection.
      rw [if_neg fun h => hsame (hids hkey hk h.2.symm), if_neg hsame]
      exact h.entries k hk

/-- A write of records that can be stored succeeds on both sides alike. -/
theorem Mirrors.put (hb : b.database.KeepsCollections entry) (hids : Set.InjOn Key.toText known)
    {records : List Record} (hrecords : ∀ r ∈ records, r.Storable ∧ r.key ∈ known)
    (h : b.Mirrors entry known s w) :
    ∃ w', b.put records w = (.ok (), w') ∧ b.Mirrors entry known (s.put records) w' := by
  induction records generalizing s w with
  | nil => exact ⟨w, rfl, h⟩
  | cons r rest ih =>
    obtain ⟨⟨hr, hkey⟩, hrest⟩ := List.forall_mem_cons.mp hrecords
    obtain ⟨w₁, hreplace, hentry⟩ :=
      hb.replace w (b.collection r.key.kind.display) r.get?_id_document
    obtain ⟨w', hput, hmirrors⟩ := ih hrest (h.replace hids hr hkey hentry)
    refine ⟨w', ?_, hmirrors⟩
    rw [DocumentBackend.put, hr.toDocument_eq]
    simp only [hreplace, hput]

/-- Removing groups removes their entries, and no others. -/
theorem removeGroups_eq_ok (hb : b.database.KeepsCollections entry)
    (gone : List (Json × List String)) (w : δ) :
    ∃ w', b.removeGroups gone w = (.ok (), w') ∧ ∀ other id, entry w' other id =
      if ∃ group ∈ gone, other = b.collection group.1.display ∧ id ∈ group.2 then none
      else entry w other id := by
  induction gone generalizing w with
  | nil => exact ⟨w, rfl, fun other id => by simp⟩
  | cons group rest ih =>
    obtain ⟨kind, ids⟩ := group
    obtain ⟨w₁, hremove, hfirst⟩ := hb.remove w (b.collection kind.display) ids
    obtain ⟨w', hrest, hothers⟩ := ih w₁
    refine ⟨w', ?_, fun other id => ?_⟩
    · rw [removeGroups]
      simp only [hremove, hrest]
    · rw [hothers, hfirst]
      simp only [List.exists_mem_cons_iff]
      by_cases hgone : other = b.collection kind.display ∧ id ∈ ids
      · simp [hgone]
      · simp only [if_neg hgone, or_iff_right hgone]

/-- A deletion of known keys succeeds on both sides alike. -/
theorem Mirrors.delete (hb : b.database.KeepsCollections entry) (hids : Set.InjOn Key.toText known)
    {keys : List Key} (hkeys : ∀ k ∈ keys, k ∈ known) (h : b.Mirrors entry known s w) :
    ∃ w', b.delete keys w = (.ok (), w') ∧ b.Mirrors entry known (s.delete keys) w' := by
  obtain ⟨w', hremove, hentry⟩ := removeGroups_eq_ok hb (groups keys) w
  refine ⟨w', hremove, fun r hr => h.storable r (List.mem_of_mem_filter hr), fun k hk => ?_⟩
  -- Kinds may share a collection, so it is the identifier alone that tells which key is meant.
  have hgone : (∃ group ∈ groups keys,
      b.collection k.kind.display = b.collection group.1.display ∧ k.toText ∈ group.2) ↔
        k ∈ keys := by
    constructor
    · rintro ⟨group, hgroup, -, hid⟩
      obtain ⟨other, hother, -, hsame⟩ := exists_mem_groups_iff.mp ⟨group, hgroup, rfl, hid⟩
      exact hids (hkeys other hother) hk hsame ▸ hother
    · intro hmem
      obtain ⟨group, hgroup, hkind, hid⟩ := exists_mem_groups_iff.mpr ⟨k, hmem, rfl, rfl⟩
      exact ⟨group, hgroup, by rw [hkind], hid⟩
  rw [hentry, Store.get?_delete]
  by_cases hmem : k ∈ keys
  · rw [if_pos (hgone.mpr hmem), if_pos hmem]
    rfl
  · rw [if_neg (hgone.not.mpr hmem), if_neg hmem]
    exact h.entries k hk

/-! ## Tables of found records -/

/-- A table of found records has the record of a key, if the store has one. -/
def Finds (s : Store) (found : List (String × Record)) (k : Key) : Prop :=
  Assoc.get? k.toText found = (s.get? k).map Record.plain

/-- A table of found records says of each known key nothing, or the truth. -/
def Sound (known : Set Key) (s : Store) (found : List (String × Record)) : Prop :=
  ∀ k ∈ known, Assoc.get? k.toText found = none ∨ Finds s found k

theorem Finds.of_sound {found : List (String × Record)} (h : Sound known s found) {k : Key}
    (hk : k ∈ known) (hnone : s.get? k = none) : Finds s found k :=
  (h k hk).elim (fun hmissing => by rw [Finds, hmissing, hnone]; rfl) id

/-- The documents of records of the store are noted under the identifiers of their keys. -/
theorem noteDocuments (hids : Set.InjOn Key.toText known) {docs : List Document}
    (hdocs : ∀ doc ∈ docs, ∃ r : Record, r.Storable ∧ r.key ∈ known ∧ s.get? r.key = some r ∧
      doc = r.document)
    {found : List (String × Record)} (hsound : Sound known s found) :
    ∃ found', docs.foldlM noteDocument found = .ok found' ∧ Sound known s found' ∧
      ∀ k ∈ known, (Finds s found k ∨ ∃ r, s.get? k = some r ∧ r.document ∈ docs) →
        Finds s found' k := by
  induction docs generalizing found with
  | nil =>
    refine ⟨found, rfl, hsound, fun k _ h => h.resolve_right ?_⟩
    rintro ⟨r, -, hr⟩
    cases hr
  | cons doc rest ih =>
    obtain ⟨⟨r, hr, hkey, hstored, rfl⟩, hrest⟩ := List.forall_mem_cons.mp hdocs
    have hnote : noteDocument found r.document = .ok (Assoc.put r.key.toText r.plain found) := by
      rw [noteDocument, hr.toRecord_document]
      rfl
    have hown : Finds s (Assoc.put r.key.toText r.plain found) r.key := by
      rw [Finds, Assoc.get?_put_self, hstored, Option.map_some]
    -- Known keys differ in their identifiers, so that noting one record touches no other one.
    have hother : ∀ k ∈ known, k ≠ r.key →
        Assoc.get? k.toText (Assoc.put r.key.toText r.plain found) =
          Assoc.get? k.toText found :=
      fun k hk hne => Assoc.get?_put_of_ne (fun h => hne (hids hk hkey h)) _ _
    have hnext : Sound known s (Assoc.put r.key.toText r.plain found) := by
      intro k hk
      by_cases hsame : k = r.key
      · exact .inr (hsame ▸ hown)
      · rw [Finds, hother k hk hsame]
        exact hsound k hk
    obtain ⟨found', hfold, hsound', hfinds⟩ := ih hrest hnext
    refine ⟨found', ?_, hsound', fun k hk h => hfinds k hk ?_⟩
    · rw [List.foldlM_cons, hnote]
      exact hfold
    · by_cases hsame : k = r.key
      · exact .inl (hsame ▸ hown)
      · rw [Finds, hother k hk hsame]
        refine h.imp_right fun ⟨own, hfound, hmem⟩ => ⟨own, hfound, ?_⟩
        refine (List.mem_cons.mp hmem).resolve_left fun hdoc => hsame (hids hk hkey ?_)
        -- The document tells its identifier, and so its key.
        rw [← (Store.get?_eq_some.mp hfound).2]
        have hid := congrArg (Assoc.get? Document.idField) hdoc
        rw [Record.get?_id_document, Record.get?_id_document] at hid
        exact Datum.text.inj (Option.some.inj hid)

/-! ## Looking up -/

/-- The document backend that also records the calls to its database. -/
def recording (b : DocumentBackend δ) : DocumentBackend (δ × List DatabaseCall) where
  database := b.database.recording
  collectionPrefix := b.collectionPrefix

/-- Recording the calls changes nothing in what the collections hold. -/
theorem mirrors_recording {calls : List DatabaseCall} :
    b.recording.Mirrors (fun state => entry state.1) known s (w, calls) ↔
      b.Mirrors entry known s w :=
  ⟨fun h => ⟨h.storable, h.entries⟩, fun h => ⟨h.storable, h.entries⟩⟩

/-- The call that looks a group up. -/
def groupCall (b : DocumentBackend δ) (group : Json × List String) : DatabaseCall :=
  .find (b.collection group.1.display) (.oneOf (distinctIds group.2))

/-- A database that holds the same entries mirrors the same store. -/
theorem Mirrors.congr (h : b.Mirrors entry known s w) {w' : δ} (hentry : entry w' = entry w) :
    b.Mirrors entry known s w' where
  storable := h.storable
  entries k hk := by
    rw [hentry]
    exact h.entries k hk

/-- What is found for a group are the documents of the records of its keys. -/
theorem Mirrors.find_group (hb : b.database.KeepsCollections entry) (h : b.Mirrors entry known s w)
    {group : Json × List String}
    (hgroup : ∀ id ∈ group.2, ∃ k ∈ known, k.kind = group.1 ∧ k.toText = id) :
    ∃ docs w', b.database.find (b.collection group.1.display) (.oneOf (distinctIds group.2)) w =
        (.ok docs, w') ∧ entry w' = entry w ∧
      (∀ doc ∈ docs, ∃ r : Record, r.Storable ∧ r.key ∈ known ∧ s.get? r.key = some r ∧
        doc = r.document) ∧
      ∀ k ∈ known, k.kind = group.1 → k.toText ∈ group.2 → ∀ r, s.get? k = some r →
        r.document ∈ docs := by
  obtain ⟨docs, w', hfind, hdocs, hentry⟩ :=
    hb.find w (b.collection group.1.display) (nodup_distinctIds group.2)
  refine ⟨docs, w', hfind, hentry, fun doc hdoc => ?_, fun k hk hkind hid r hr => ?_⟩
  · obtain ⟨id, hid, hstands⟩ := List.mem_filterMap.mp (hdocs.mem_iff.mp hdoc)
    obtain ⟨k, hk, hkind, rfl⟩ := hgroup id (mem_distinctIds.mp hid)
    rw [← hkind, h.entries k hk, Option.map_eq_some_iff] at hstands
    obtain ⟨r, hr, rfl⟩ := hstands
    obtain ⟨hmem, rfl⟩ := Store.get?_eq_some.mp hr
    exact ⟨r, h.storable r hmem, hk, hr, rfl⟩
  · refine hdocs.mem_iff.mpr (List.mem_filterMap.mpr ⟨k.toText, mem_distinctIds.mpr hid, ?_⟩)
    rw [← hkind, h.entries k hk, hr, Option.map_some]

/-- Looking groups up finds what the store holds for their keys, with one call for each group. -/
theorem Mirrors.findGroups (hb : b.database.KeepsCollections entry)
    (hids : Set.InjOn Key.toText known) (h : b.Mirrors entry known s w)
    {sought : List (Json × List String)}
    (hsought : ∀ group ∈ sought, ∀ id ∈ group.2, ∃ k ∈ known, k.kind = group.1 ∧ k.toText = id)
    {found : List (String × Record)} (hsound : Sound known s found) (calls : List DatabaseCall) :
    ∃ found' w', b.recording.findGroups sought found (w, calls) =
        (.ok found', (w', calls ++ sought.map b.groupCall)) ∧ entry w' = entry w ∧
      ∀ k ∈ known,
        (Finds s found k ∨ ∃ group ∈ sought, k.kind = group.1 ∧ k.toText ∈ group.2) →
          Finds s found' k := by
  induction sought generalizing w found calls with
  | nil =>
    refine ⟨found, w, by rw [List.map_nil, List.append_nil]; rfl, rfl, fun k _ hk => ?_⟩
    exact hk.resolve_right fun ⟨group, hgroup, _⟩ => nomatch hgroup
  | cons group rest ih =>
    obtain ⟨hfirst, hrest⟩ := List.forall_mem_cons.mp hsought
    obtain ⟨docs, w₁, hfind, hentry₁, hdocs, hall⟩ := h.find_group hb hfirst
    obtain ⟨found₁, hnoted, hsound₁, hfinds₁⟩ := noteDocuments hids hdocs hsound
    -- What the first group has found stays found while the others are looked up.
    obtain ⟨found', w', hothers, hentry', hfinds'⟩ :=
      ih (h.congr hentry₁) hrest hsound₁ (calls ++ [b.groupCall group])
    refine ⟨found', w', ?_, hentry'.trans hentry₁, fun k hk hsome => hfinds' k hk ?_⟩
    · have hrecorded : b.recording.database.find (b.recording.collection group.1.display)
          (.oneOf (distinctIds group.2)) (w, calls) =
            (.ok docs, (w₁, calls ++ [b.groupCall group])) :=
        Database.recording_find hfind calls
      rw [DocumentBackend.findGroups]
      simp only [hrecorded, hnoted, hothers, List.map_cons, List.append_assoc,
        List.singleton_append]
    · rw [List.exists_mem_cons_iff, ← or_assoc] at hsome
      refine hsome.imp_left fun hnow => ?_
      rcases hnow with hbefore | ⟨hkind, hid⟩
      · exact hfinds₁ k hk (.inl hbefore)
      · cases hstored : s.get? k with
        | none => exact Finds.of_sound hsound₁ hk hstored
        | some r => exact hfinds₁ k hk (.inr ⟨r, hstored, hall k hk hkind hid r hstored⟩)

/-- A lookup answers for each key with what the store holds. -/
theorem Mirrors.lookup (hb : b.database.KeepsCollections entry) (hids : Set.InjOn Key.toText known)
    (h : b.Mirrors entry known s w) {keys : List Key} (hkeys : ∀ k ∈ keys, k ∈ known)
    (calls : List DatabaseCall) :
    ∃ w', b.recording.lookup keys (w, calls) =
        (.ok ((keys.map s.get?).map (Option.map Record.plain)),
          (w', calls ++ (groups keys).map b.groupCall)) ∧ entry w' = entry w := by
  -- Every id that a group asks for is that of a known key.
  have hsought : ∀ group ∈ groups keys, ∀ id ∈ group.2,
      ∃ k ∈ known, k.kind = group.1 ∧ k.toText = id := by
    intro group hgroup id hid
    obtain ⟨k, hk, hkind, htext⟩ := exists_mem_groups_iff.mp ⟨group, hgroup, rfl, hid⟩
    exact ⟨k, hkeys k hk, hkind, htext⟩
  have hnothing : Sound known s [] := fun _ _ => .inl rfl
  obtain ⟨found, w', hfind, hentry, hfinds⟩ := h.findGroups hb hids hsought hnothing calls
  refine ⟨w', ?_, hentry⟩
  -- The records come back in the order of the keys, whatever the order of the groups.
  have hslots : keys.map (fun k => Assoc.get? k.toText found) =
      (keys.map s.get?).map (Option.map Record.plain) := by
    rw [List.map_map]
    refine List.map_congr_left fun k hk => hfinds k (hkeys k hk) (.inr ?_)
    obtain ⟨group, hgroup, hkind, hid⟩ := exists_mem_groups_iff.mpr ⟨k, hk, rfl, rfl⟩
    exact ⟨group, hgroup, hkind.symm, hid⟩
  rw [DocumentBackend.lookup, hfind]
  simp only [hslots]

/-! ## Runs -/

/-- A call leaves a mirrored store mirrored, and succeeds. -/
theorem Mirrors.perform (levels : Nat) (hb : b.database.KeepsCollections entry)
    (hids : Set.InjOn Key.toText known) {call : KeyedCall} (hstorable : ∀ r ∈ call.records, r.Storable)
    (hkeys : ∀ k ∈ call.keys, k ∈ known) (h : b.Mirrors entry known s w)
    (calls : List DatabaseCall) :
    ∃ s' w' calls', call.perform Store.backend s = (.ok (), s') ∧
      call.perform (b.recording.backend levels) (w, calls) = (.ok (), (w', calls')) ∧
      b.Mirrors entry known s' w' := by
  have hrecording : b.recording.Mirrors (fun state => entry state.1) known s (w, calls) :=
    mirrors_recording.mpr h
  cases call with
  | put records =>
    have hrecords : ∀ r ∈ records, r.Storable ∧ r.key ∈ known := fun r hr =>
      ⟨hstorable r hr, hkeys r.key (List.mem_map_of_mem hr)⟩
    obtain ⟨⟨w', calls'⟩, hput, hmirrors⟩ := hrecording.put hb.recording hids hrecords
    exact ⟨_, w', calls', rfl, hput, mirrors_recording.mp hmirrors⟩
  | delete keys =>
    obtain ⟨⟨w', calls'⟩, hdelete, hmirrors⟩ := hrecording.delete hb.recording hids hkeys
    exact ⟨_, w', calls', rfl, hdelete, mirrors_recording.mp hmirrors⟩
  | lookup keys =>
    have hknown : ∀ k ∈ keys, k ∈ known := hkeys
    obtain ⟨w', hlookup, hentry⟩ := h.lookup hb hids hknown calls
    -- A lookup counts on the side of the store alone, and the database keeps its entries.
    have hnext : b.Mirrors entry known { s with lookups := s.lookups + 1 } w' :=
      ⟨(h.congr hentry).storable, (h.congr hentry).entries⟩
    refine ⟨_, w', calls ++ (groups keys).map b.groupCall, rfl, ?_, hnext⟩
    rw [KeyedCall.perform]
    simp only [backend, hlookup]
    rfl

/-- A run of calls succeeds on both sides alike. -/
theorem Mirrors.performAll (levels : Nat) (hb : b.database.KeepsCollections entry)
    (hids : Set.InjOn Key.toText known) {run : List KeyedCall}
    (hstorable : ∀ call ∈ run, ∀ r ∈ call.records, r.Storable)
    (hkeys : ∀ call ∈ run, ∀ k ∈ call.keys, k ∈ known) (h : b.Mirrors entry known s w)
    (calls : List DatabaseCall) :
    ∃ s' w' calls', KeyedCall.performAll Store.backend run s = (.ok (), s') ∧
      KeyedCall.performAll (b.recording.backend levels) run (w, calls) = (.ok (), (w', calls')) ∧
      b.Mirrors entry known s' w' := by
  induction run generalizing s w calls with
  | nil => exact ⟨s, w, calls, rfl, rfl, h⟩
  | cons call rest ih =>
    obtain ⟨hfirst, hothers⟩ := List.forall_mem_cons.mp hstorable
    obtain ⟨hfirstKeys, hotherKeys⟩ := List.forall_mem_cons.mp hkeys
    obtain ⟨s₁, w₁, calls₁, hstore, hdocument, h₁⟩ := h.perform levels hb hids hfirst hfirstKeys calls
    obtain ⟨s', w', calls', hstore', hdocument', h'⟩ := ih hothers hotherKeys h₁ calls₁
    refine ⟨s', w', calls', ?_, ?_, h'⟩
    · rw [KeyedCall.performAll, hstore]
      exact hstore'
    · rw [KeyedCall.performAll, hdocument]
      exact hdocument'

/-- Let some calls be performed on a database without entries and on a store without records, where
what they write can be stored and the keys that they name, and those that are looked up afterwards,
differ in their identifiers. All calls succeed. The lookup then answers one slot for each key, in
order, with what the store answers in the plain form: a record with the same key, payload and column
names, which is the same record unless a blob was marked as binary data. It makes one call for each
kind among the keys, and no others. -/
theorem lookup_after (levels : Nat) (hb : b.database.KeepsCollections entry)
    (hempty : ∀ collection id, entry w collection id = none) {run : List KeyedCall}
    {keys : List Key} (hstorable : ∀ call ∈ run, ∀ r ∈ call.records, r.Storable)
    (hids : Set.InjOn Key.toText {k | k ∈ keys ++ run.flatMap KeyedCall.keys}) :
    ∃ s w' w'' calls, ∃ kinds : List Json,
      KeyedCall.performAll Store.backend run {} = (.ok (), s) ∧
      KeyedCall.performAll (b.recording.backend levels) run (w, []) = (.ok (), (w', calls)) ∧
      (Store.lookup keys s).1 = .ok (keys.map s.get?) ∧
      b.recording.lookup keys (w', calls) =
        (.ok ((keys.map s.get?).map (Option.map Record.plain)),
          (w'', calls ++ kinds.map fun kind => .find (b.collection kind.display)
            (.oneOf (distinctIds ((keys.filter fun k => k.kind = kind).map Key.toText))))) ∧
      (∀ r, some r ∈ keys.map s.get? →
        (∀ column ∈ r.columns, ∀ bytes, column.2 ≠ .binary bytes) → r.same r.plain = true) ∧
      kinds.Nodup ∧ ∀ kind, kind ∈ kinds ↔ ∃ k ∈ keys, k.kind = kind := by
  -- The known keys are those of the run and those that are looked up after it.
  have hnamed : ∀ call ∈ run, ∀ k ∈ call.keys, k ∈ {k | k ∈ keys ++ run.flatMap KeyedCall.keys} :=
    fun call hcall k hk => List.mem_append_right _ (List.mem_flatMap.mpr ⟨call, hcall, hk⟩)
  obtain ⟨s, w', calls, hstore, hdocument, hmirrors⟩ :=
    (mirrors_empty hempty).performAll levels hb hids hstorable hnamed []
  obtain ⟨w'', hlookup, -⟩ :=
    hmirrors.lookup hb hids (fun k hk => List.mem_append_left _ hk) calls
  have hcalls : (groups keys).map b.groupCall =
      (Assoc.keys (groups keys)).map fun kind => .find (b.collection kind.display)
        (.oneOf (distinctIds ((keys.filter fun k => k.kind = kind).map Key.toText))) := by
    rw [Assoc.keys, List.map_map]
    refine List.map_congr_left fun group hgroup => ?_
    rw [Function.comp_apply, groupCall, ids_of_mem_groups hgroup]
  rw [hcalls] at hlookup
  refine ⟨s, w', w'', calls, Assoc.keys (groups keys), hstore, hdocument, rfl, hlookup, ?_,
    nodup_keys_groups keys, fun kind => mem_keys_groups⟩
  intro r hr hbinary
  obtain ⟨k, -, hfound⟩ := List.mem_map.mp hr
  obtain ⟨hmem, -⟩ := Store.get?_eq_some.mp hfound
  exact Record.same_plain (hmirrors.storable r hmem).toWellFormed hbinary

/-- Records of two kinds, one of which is written twice, and one of which is removed. -/
theorem lookup_after_overwriting :
    let key (kind name : String) (hkind : (Json.string kind).isTruthy)
        (hname : (Json.string name).isTruthy) : Key :=
      ⟨⟨.string kind, .string name, hkind, hname⟩, []⟩
    let row := key "Row" "a" rfl rfl
    let task := key "Task" "a" rfl rfl
    let gone := key "Row" "b" rfl rfl
    let marked (key : Key) (mark : String) : Record := ⟨key, [("mark", .string mark)], []⟩
    let b : DocumentBackend Database.Table := { database := .tables }
    let run : List KeyedCall := [.put [marked row "x", marked gone "y"], .lookup [gone],
      .put [marked task "z", marked row "u"], .delete [gone]]
    ∃ w calls, KeyedCall.performAll b.recording.backend run ([], []) = (.ok (), (w, calls)) ∧
      (b.recording.lookup [task, row, gone, row] (w, calls)).1 =
        .ok [some (marked task "z"), some (marked row "u"), none, some (marked row "u")] := by
  intro key row task gone marked b run
  have hstorable (key : Key) (mark : String) : (marked key mark).Storable :=
    Record.storable_singleton key (by decide) nofun
  have hwritten : ∀ call ∈ run, ∀ r ∈ call.records, r.Storable := by
    simp [run, KeyedCall.records, hstorable]
  -- The texts of the keys tell them apart, so the database may find documents by them.
  have htells : ∀ k ∈ [task, row, gone, row] ++ run.flatMap KeyedCall.keys,
      ∀ other ∈ [task, row, gone, row] ++ run.flatMap KeyedCall.keys,
        k.toText = other.toText → k = other := by decide
  obtain ⟨s, w, w', calls, kinds, hstore, hrun, -, hlookup, -⟩ :=
    lookup_after (b := b) Json.usualLevels Database.keepsCollections_tables (w := [])
      (fun _ _ => rfl) hwritten fun k hk other hother => htells k hk other hother
  obtain rfl : _ = s := congrArg Prod.snd hstore
  refine ⟨w, calls, hrun, ?_⟩
  rw [hlookup]
  rfl

/-- A blob that was marked as binary data is found as other bytes of the same content. -/
theorem lookup_of_marked :
    let r : Record := ⟨⟨⟨.string "Row", .string "a", rfl, rfl⟩, []⟩, [("b", .binary [1])], []⟩
    let b : DocumentBackend Database.Table := { database := .tables }
    r.Storable ∧ r.same r.plain = false ∧
      ∃ w calls, b.recording.put [r] ([], []) = (.ok (), (w, calls)) ∧
        (b.recording.lookup [r.key] (w, calls)).1 = .ok [some r.plain] ∧
        (Store.lookup [r.key] (Store.put {} [r])).1 = .ok [some r] := by
  intro r b
  have hr : r.Storable := Record.storable_singleton _ (by decide) nofun
  have hids : Set.InjOn Key.toText {r.key} := Set.injOn_singleton _ _
  have hwritten : ∀ own ∈ (KeyedCall.put [r]).records, own.Storable :=
    List.forall_mem_singleton.mpr hr
  have hkeys : ∀ k ∈ [r.key], k ∈ ({r.key} : Set Key) := List.forall_mem_singleton.mpr rfl
  -- One write of an empty database, which mirrors the empty store.
  obtain ⟨s, w, calls, hstore, hput, hmirrors⟩ :=
    (mirrors_empty (b := b) (w := []) fun _ _ => rfl).perform Json.usualLevels
      Database.keepsCollections_tables hids hwritten hkeys []
  obtain rfl : Store.put {} [r] = s := congrArg Prod.snd hstore
  obtain ⟨w', hlookup, -⟩ :=
    hmirrors.lookup Database.keepsCollections_tables hids hkeys calls
  refine ⟨hr, rfl, w, calls, hput, ?_, rfl⟩
  rw [hlookup]
  rfl

end DocumentBackend

end RecordStore
