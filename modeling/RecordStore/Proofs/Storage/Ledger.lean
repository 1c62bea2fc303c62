import RecordStore.Model.Codec
import RecordStore.Proofs.Storage.Reading

/-!
# A storage is a map from names to records

Through writing and removing, a storage over a store in memory holds what a `Ledger` holds after the
same calls: a map from the names of identifiers to records, in the order in which the names came
(`Storage.performAll_ledger`). A call that fails leaves both as they were. What is read, removed and
listed can therefore be read off the ledger (`Model.storage_ledger`).
-/

namespace RecordStore

/-! ## Calls -/

/-- A call that changes what a storage holds. -/
inductive StorageCall (α : Type)
  | write (record : α)
  | writeAll (records : List α)
  | delete (id : Datum)

/-- The records that a call writes. -/
def StorageCall.records {α : Type} : StorageCall α → List α
  | .write a => [a]
  | .writeAll records => records
  | .delete _ => []

namespace Storage

variable {σ α : Type}

/-- A call; one that removes answers whether there was something to remove. -/
def perform (s : Storage α) (b : Backend σ) : StorageCall α → σ → Outcome σ (Option Bool)
  | .write a, w =>
    match s.write b a w with
    | (result, w) => (result.map fun _ => none, w)
  | .writeAll records, w =>
    match s.writeAll b records w with
    | (result, w) => (result.map fun _ => none, w)
  | .delete id, w =>
    match s.delete b id w with
    | (result, w) => (result.map some, w)

/-- The answers of calls that are made one after the other, also after one has failed. -/
def performAll (s : Storage α) (b : Backend σ) :
    List (StorageCall α) → σ → List (Except Error (Option Bool)) × σ
  | [], w => ([], w)
  | call :: rest, w =>
    match s.perform b call w with
    | (answer, w) =>
      match performAll s b rest w with
      | (answers, w) => (answer :: answers, w)

end Storage

/-- A map from the names of identifiers to records, in the order in which the names came. -/
abbrev Ledger (α : Type) : Type := List (String × α)

namespace Ledger

variable {α : Type}

/-- Enters a record under the name of its identifier. -/
def enter (s : Storage α) (ledger : Ledger α) (a : α) : Ledger α :=
  match (s.idOf a).keyName with
  | .ok name => Assoc.put name a ledger
  | .error _ => ledger

/-- Enters records, if all of them can be encoded. -/
def enterAll (s : Storage α) (records : List α) (ledger : Ledger α) :
    Except Error (Option Bool) × Ledger α :=
  match records.mapM s.reader.codec.encode with
  | .ok _ => (.ok none, records.foldl (enter s) ledger)
  | .error e => (.error e, ledger)

/-- What a call means. -/
def perform (s : Storage α) : StorageCall α → Ledger α → Except Error (Option Bool) × Ledger α
  | .write a, ledger => enterAll s [a] ledger
  | .writeAll records, ledger => enterAll s records ledger
  | .delete id, ledger =>
    match id.keyName with
    | .ok name => (.ok (some (Assoc.contains name ledger)), Assoc.erase name ledger)
    | .error e => (.error e, ledger)

/-- The answers of calls that are made one after the other, also after one has failed. -/
def performAll (s : Storage α) :
    List (StorageCall α) → Ledger α → List (Except Error (Option Bool)) × Ledger α
  | [], ledger => ([], ledger)
  | call :: rest, ledger =>
    match perform s call ledger with
    | (answer, ledger) =>
      match performAll s rest ledger with
      | (answers, ledger) => (answer :: answers, ledger)

/-- A record that is entered makes no name stand twice. -/
theorem nodup_enter (s : Storage α) {ledger : Ledger α} (h : (Assoc.keys ledger).Nodup) (a : α) :
    (Assoc.keys (enter s ledger a)).Nodup := by
  rw [enter]
  split
  · exact Assoc.nodup_keys_put h _ a
  · exact h

theorem nodup_enterAll (s : Storage α) (records : List α) {ledger : Ledger α}
    (h : (Assoc.keys ledger).Nodup) : (Assoc.keys (enterAll s records ledger).2).Nodup := by
  have hentered : (Assoc.keys (records.foldl (enter s) ledger)).Nodup := by
    induction records generalizing ledger with
    | nil => exact h
    | cons a rest ih => exact ih (nodup_enter s h a)
  rw [enterAll]
  split
  · exact hentered
  · exact h

theorem nodup_perform (s : Storage α) (call : StorageCall α) {ledger : Ledger α}
    (h : (Assoc.keys ledger).Nodup) : (Assoc.keys (perform s call ledger).2).Nodup := by
  cases call with
  | write a => exact nodup_enterAll s [a] h
  | writeAll records => exact nodup_enterAll s records h
  | delete id =>
    rw [perform]
    split
    · exact h.sublist (List.filter_sublist.map _)
    · exact h

/-- No name stands twice in a ledger. -/
theorem nodup_performAll (s : Storage α) (calls : List (StorageCall α)) {ledger : Ledger α}
    (h : (Assoc.keys ledger).Nodup) : (Assoc.keys (performAll s calls ledger).2).Nodup := by
  induction calls generalizing ledger with
  | nil => exact h
  | cons call rest ih => exact ih (nodup_perform s call h)

end Ledger

/-! ## Names and keys -/

namespace Layout

/-- A key is the one that a layout gives to the identifiers with a name. -/
def Names (l : Layout) (name : String) (key : Key) : Prop :=
  ∃ id : Datum, id.keyName = .ok name ∧ l.keyOf id = .ok key

variable {l : Layout} {name name' : String} {key key' : Key}

/-- Different names have different keys. -/
theorem Names.eq_iff (h : l.Names name key) (h' : l.Names name' key') :
    key = key' ↔ name = name' := by
  obtain ⟨id, hname, hkey⟩ := h
  obtain ⟨id', hname', hkey'⟩ := h'
  obtain ⟨_, hown, hkind, htext, habove⟩ := keyOf_eq_ok.mp hkey
  obtain ⟨_, hown', hkind', htext', habove'⟩ := keyOf_eq_ok.mp hkey'
  rw [hname] at hown
  rw [hname'] at hown'
  cases hown
  cases hown'
  -- A key of the layout is its kind, what it lies below, and the name.
  constructor
  · rintro rfl
    rw [htext] at htext'
    exact Json.string.inj htext'
  · rintro rfl
    have hlink : key.own = key'.own := Step.eq_of_kind_of_name
      (hkind.trans hkind'.symm) (htext.trans htext'.symm)
    cases key
    cases key'
    cases hlink
    cases habove.trans habove'.symm
    rfl

/-- An identifier without a name has no key. -/
theorem keyOf_eq_error {id : Datum} {e : Error} (h : id.keyName = .error e) :
    l.keyOf id = .error e := by
  rw [keyOf, h]
  rfl

end Layout

/-! ## Maps side by side -/

namespace Ledger

variable {α : Type} {l : Layout} {R : String × α → Record → Prop} {ledger : Ledger α}
  {records : List Record} {name : String} {key : Key}

/-- Entering a record and writing its stored form, side by side. -/
theorem forall₂_put (hnames : ∀ entry r, R entry r → l.Names entry.1 r.key)
    (h : List.Forall₂ R ledger records) {a : α} {r : Record} (hr : R (name, a) r) :
    List.Forall₂ R (Assoc.put name a ledger) (Store.putRecord records r) := by
  induction h with
  | nil => exact .cons hr .nil
  | @cons entry old rest others hentry hothers ih =>
    have hsame := (hnames entry old hentry).eq_iff (hnames _ r hr)
    rw [Assoc.put, Store.putRecord]
    by_cases hname : entry.1 = name
    · rw [if_pos hname, if_pos (hsame.mpr hname), hname]
      exact .cons hr hothers
    · rw [if_neg hname, if_neg (hsame.not.mpr hname)]
      exact .cons hentry ih

/-- Erasing a name and removing its key, side by side. -/
theorem forall₂_erase (hnames : ∀ entry r, R entry r → l.Names entry.1 r.key)
    (h : List.Forall₂ R ledger records) (hkey : l.Names name key) :
    List.Forall₂ R (Assoc.erase name ledger) (records.filter fun r => !([key].contains r.key)) := by
  induction h with
  | nil => exact .nil
  | @cons entry old rest others hentry hothers ih =>
    have hsame := (hnames entry old hentry).eq_iff hkey
    rw [Assoc.erase] at ih ⊢
    by_cases hname : entry.1 = name
    · rw [List.filter_cons_of_neg (by simp [hname]),
        List.filter_cons_of_neg (by simp [hsame.mpr hname])]
      exact ih
    · rw [List.filter_cons_of_pos (by simp [hname]),
        List.filter_cons_of_pos (by simpa using hsame.not.mpr hname)]
      exact .cons hentry ih

/-- What stands under a name and under its key, side by side. -/
theorem rel_get? (hnames : ∀ entry r, R entry r → l.Names entry.1 r.key)
    (h : List.Forall₂ R ledger records) (hkey : l.Names name key) :
    Option.Rel (fun a r => R (name, a) r) (Assoc.get? name ledger)
      (records.find? fun r => r.key = key) := by
  induction h with
  | nil => exact .none
  | @cons entry old rest others hentry hothers ih =>
    have hsame := (hnames entry old hentry).eq_iff hkey
    obtain ⟨own, a⟩ := entry
    rw [Assoc.get?, List.find?_cons]
    by_cases hname : own = name
    · subst hname
      rw [if_pos rfl, decide_eq_true (hsame.mpr rfl)]
      exact .some hentry
    · rw [if_neg hname, decide_eq_false (hsame.not.mpr hname)]
      exact ih

end Ledger

/-! ## The simulation -/

namespace Storage

variable {α : Type} {s : Storage α} {Same : α → α → Prop}

/-- Records are stored under the keys of their identifiers. -/
def StoresById (s : Storage α) : Prop :=
  ∀ ⦃a r⦄, s.reader.codec.encode a = .ok r → s.layout.keyOf (s.idOf a) = .ok r.key

/-- A record that can be encoded is decoded to the same one. -/
def RoundTrips (s : Storage α) (Same : α → α → Prop) (a : α) : Prop :=
  ∀ r, s.reader.codec.encode a = .ok r → ∃ back, s.reader.codec.decode r = .ok back ∧ Same back a

/-- A stored record is that of an entry of a ledger, and is decoded to the same record. -/
structure Stands (s : Storage α) (Same : α → α → Prop) (entry : String × α) (r : Record) :
    Prop where
  encoded : s.reader.codec.encode entry.2 = .ok r
  named : s.layout.Names entry.1 r.key
  decoded : ∃ back, s.reader.codec.decode r = .ok back ∧ Same back entry.2

/-- A record that is entered and its stored form that is written. -/
theorem stands_enter (hids : s.StoresById) {ledger : Ledger α} {records : List Record}
    (h : List.Forall₂ (s.Stands Same) ledger records) {a : α} {r : Record}
    (hr : s.reader.codec.encode a = .ok r) (hround : s.RoundTrips Same a) :
    List.Forall₂ (s.Stands Same) (Ledger.enter s ledger a) (Store.putRecord records r) := by
  obtain ⟨name, hname, -⟩ := Layout.keyOf_eq_ok.mp (hids hr)
  rw [Ledger.enter, hname]
  exact Ledger.forall₂_put (fun _ _ => Stands.named) h ⟨hr, ⟨_, hname, hids hr⟩, hround r hr⟩

/-- Records that are entered and their stored forms that are written. -/
theorem stands_enterAll (hids : s.StoresById) {written : List α} {stored : List Record}
    (hstored : List.Forall₂ (fun a r => s.reader.codec.encode a = .ok r) written stored)
    (hround : ∀ a ∈ written, s.RoundTrips Same a) {ledger : Ledger α} {records : List Record}
    (h : List.Forall₂ (s.Stands Same) ledger records) :
    List.Forall₂ (s.Stands Same) (written.foldl (Ledger.enter s) ledger)
      (stored.foldl Store.putRecord records) := by
  induction hstored generalizing ledger records with
  | nil => exact h
  | cons hr _ ih =>
    obtain ⟨hfirst, hrest⟩ := List.forall_mem_cons.mp hround
    exact ih hrest (stands_enter hids h hr hfirst)

/-- Writing records means entering them. -/
theorem writeAll_ledger (hids : s.StoresById) {written : List α}
    (hround : ∀ a ∈ written, s.RoundTrips Same a) {ledger : Ledger α} {store : Store}
    (h : List.Forall₂ (s.Stands Same) ledger store.records) :
    ((s.writeAll Store.backend written store).1.map fun _ => none) =
        (Ledger.enterAll s written ledger).1 ∧
      List.Forall₂ (s.Stands Same) (Ledger.enterAll s written ledger).2
        (s.writeAll Store.backend written store).2.records := by
  rw [writeAll, Ledger.enterAll]
  cases hstored : written.mapM s.reader.codec.encode with
  | error e => exact ⟨rfl, h⟩
  | ok stored =>
    have hentered := stands_enterAll hids (Result.mapM_eq_ok.mp hstored) hround h
    cases stored with
    | nil => exact ⟨rfl, hentered⟩
    | cons r rest => exact ⟨rfl, hentered⟩

/-- Removing a record means erasing the name of its identifier, and says whether it was there. -/
theorem delete_ledger {ledger : Ledger α} {store : Store}
    (h : List.Forall₂ (s.Stands Same) ledger store.records) (id : Datum) :
    ((s.delete Store.backend id store).1.map some) = (Ledger.perform s (.delete id) ledger).1 ∧
      List.Forall₂ (s.Stands Same) (Ledger.perform s (.delete id) ledger).2
        (s.delete Store.backend id store).2.records := by
  rw [delete, find_eq, Ledger.perform]
  cases hname : id.keyName with
  | error e =>
    rw [Layout.keyOf_eq_error hname]
    exact ⟨rfl, h⟩
  | ok name =>
    obtain ⟨key, hkey⟩ := Layout.exists_keyOf (l := s.layout) hname
    have hnamed : s.layout.Names name key := ⟨id, hname, hkey⟩
    have herased := Ledger.forall₂_erase (fun _ _ => Stands.named) h hnamed
    have hfound := Ledger.rel_get? (fun _ _ => Stands.named) h hnamed
    rw [hkey]
    simp only [Assoc.contains, Store.get?]
    cases hstored : store.records.find? fun r => r.key = key with
    | none =>
      rw [hstored] at hfound
      -- Nothing is removed, and nothing has the key.
      have hkept : store.records.filter (fun r => !([key].contains r.key)) = store.records := by
        rw [List.filter_eq_self]
        intro r hr
        simpa using List.find?_eq_none.mp hstored r hr
      rw [hkept] at herased
      cases hentry : Assoc.get? name ledger with
      | none => exact ⟨rfl, herased⟩
      | some a =>
        rw [hentry] at hfound
        cases hfound
    | some r =>
      rw [hstored] at hfound
      cases hentry : Assoc.get? name ledger with
      | none =>
        rw [hentry] at hfound
        cases hfound
      | some a => exact ⟨rfl, herased⟩

/-- A call does what it means. -/
theorem perform_ledger (hids : s.StoresById) {call : StorageCall α}
    (hround : ∀ a ∈ call.records, s.RoundTrips Same a) {ledger : Ledger α} {store : Store}
    (h : List.Forall₂ (s.Stands Same) ledger store.records) :
    (s.perform Store.backend call store).1 = (Ledger.perform s call ledger).1 ∧
      List.Forall₂ (s.Stands Same) (Ledger.perform s call ledger).2
        (s.perform Store.backend call store).2.records := by
  cases call with
  | write a => exact writeAll_ledger hids hround h
  | writeAll written => exact writeAll_ledger hids hround h
  | delete id => exact delete_ledger h id

/-- A run of calls keeps the ledger in step with the store. -/
theorem performAll_ledger (hids : s.StoresById) {calls : List (StorageCall α)}
    (hround : ∀ call ∈ calls, ∀ a ∈ call.records, s.RoundTrips Same a) {ledger : Ledger α}
    {store : Store} (h : List.Forall₂ (s.Stands Same) ledger store.records) :
    (s.performAll Store.backend calls store).1 = (Ledger.performAll s calls ledger).1 ∧
      List.Forall₂ (s.Stands Same) (Ledger.performAll s calls ledger).2
        (s.performAll Store.backend calls store).2.records := by
  induction calls generalizing ledger store with
  | nil => exact ⟨rfl, h⟩
  | cons call rest ih =>
    obtain ⟨hfirst, hrest⟩ := List.forall_mem_cons.mp hround
    obtain ⟨hanswer, hnext⟩ := perform_ledger hids hfirst h
    obtain ⟨hanswers, hlast⟩ := ih hrest hnext
    refine ⟨?_, hlast⟩
    rw [performAll, Ledger.performAll]
    simp only [hanswer, hanswers]

/-- Records are encoded before the first one is written. -/
theorem writeAll_of_error {written : List α} {store : Store} {e : Error}
    (h : (s.writeAll Store.backend written store).1 = .error e) :
    (s.writeAll Store.backend written store).2 = store := by
  rw [writeAll] at h ⊢
  cases hstored : written.mapM s.reader.codec.encode with
  | error e => rfl
  | ok stored =>
    rw [hstored] at h
    cases stored <;> cases h

/-- An identifier without a name is refused before anything is looked up. -/
theorem delete_of_error {id : Datum} {store : Store} {e : Error}
    (h : (s.delete Store.backend id store).1 = .error e) :
    (s.delete Store.backend id store).2 = store := by
  rw [delete, find_eq] at h ⊢
  cases hkey : s.layout.keyOf id with
  | error e => rfl
  | ok key =>
    rw [hkey] at h
    cases hstored : store.get? key with
    | none => simp only [hstored] at h; cases h
    | some r => simp only [hstored] at h; cases h

/-- A call that fails leaves the store as it was. -/
theorem perform_of_error {call : StorageCall α} {store : Store} {e : Error}
    (h : (s.perform Store.backend call store).1 = .error e) :
    (s.perform Store.backend call store).2 = store := by
  cases call with
  | write a => exact writeAll_of_error (Result.map_eq_error.mp h)
  | writeAll written => exact writeAll_of_error (Result.map_eq_error.mp h)
  | delete id => exact delete_of_error (Result.map_eq_error.mp h)

/-! ## What is read -/

/-- A stored record is decoded to that of an entry. -/
structure Holds (s : Storage α) (own : String × α) (r : Record) : Prop where
  decoded : s.reader.codec.decode r = .ok own.2
  named : s.layout.Names own.1 r.key

/-- The records of a ledger, as they are decoded from a store. -/
theorem exists_held {ledger : Ledger α} {records : List Record}
    (h : List.Forall₂ (s.Stands Same) ledger records) :
    ∃ held : Ledger α,
      List.Forall₂ (fun entry own => own.1 = entry.1 ∧ Same own.2 entry.2) ledger held ∧
        List.Forall₂ s.Holds held records := by
  induction h with
  | nil => exact ⟨[], .nil, .nil⟩
  | @cons entry r _ _ hfirst _ ih =>
    obtain ⟨held, hsame, hholds⟩ := ih
    obtain ⟨back, hback, hequal⟩ := hfirst.decoded
    exact ⟨(entry.1, back) :: held, .cons ⟨rfl, hequal⟩ hsame, .cons ⟨hback, hfirst.named⟩ hholds⟩

variable {held : Ledger α} {store : Store}

/-- What is read under an identifier stands under its name. -/
theorem read_of_holds (h : List.Forall₂ s.Holds held store.records) {id : Datum} {name : String}
    (hname : id.keyName = .ok name) (mask : FieldMask) :
    (s.read Store.backend id mask store).1 =
      .ok ((Assoc.get? name held).map (s.reader.codec.mask mask)) := by
  obtain ⟨key, hkey⟩ := Layout.exists_keyOf (l := s.layout) hname
  have hfound := Ledger.rel_get? (fun _ _ => Holds.named) h ⟨id, hname, hkey⟩
  rw [read_of_keyOf hkey, Store.get?]
  revert hfound
  generalize Assoc.get? name held = entry
  generalize (store.records.find? fun r => r.key = key) = found
  rintro (hfound | _)
  · simp only [hfound.decoded]
    rfl
  · rfl

/-- Stored records are decoded to those that the ledger holds. -/
theorem decoded_of_holds {records : List Record} (h : List.Forall₂ s.Holds held records) :
    List.Forall₂ (fun r a => s.reader.codec.decode r = .ok a) records (held.map Prod.snd) := by
  induction h with
  | nil => exact .nil
  | cons hfirst _ ih => exact .cons hfirst.decoded ih

/-- Every record that the ledger holds is in the scope of the storage. -/
theorem inScope_of_holds {records : List Record} (h : List.Forall₂ s.Holds held records) :
    ∀ r ∈ records, s.InScope r = true := by
  induction h with
  | nil => exact List.forall_mem_nil _
  | cons hfirst _ ih =>
    obtain ⟨_, -, hkey⟩ := hfirst.named
    exact List.forall_mem_cons.mpr ⟨Layout.inScope_keyOf hkey, ih⟩

/-- The index lists the identifiers of the records in their order. -/
theorem index_of_holds (h : List.Forall₂ s.Holds held store.records)
    (hlength : held.length < 10 ^ Number.maxDigits) (count : Nat) :
    (s.index Store.backend count store).1 =
      ((held.take count).map fun own => s.idOf own.2, none) := by
  rw [h.length_eq] at hlength
  have hdecoded := decoded_of_holds h
  rw [← List.filter_eq_self.mpr (inScope_of_holds h)] at hdecoded
  rw [index_eq hdecoded hlength, ← List.map_take, List.map_map]
  rfl

end Storage

/-! ## Model instances -/

namespace Model

/-- A storage for the instances of a schema. -/
def storage (catalog : Catalog) (schema : Schema) (registry : Registry) (layout : Layout)
    (config : ReadConfig) (idField : String) : Storage Datum where
  reader := ⟨codec catalog schema registry layout idField, registry, layout, config⟩
  idOf := layout.idOf

/-- The storage of a model stores by identifiers. -/
theorem storesById_storage (catalog : Catalog) (schema : Schema) (registry : Registry)
    (layout : Layout) (config : ReadConfig) (idField : String) :
    (storage catalog schema registry layout config idField).StoresById := by
  intro a r h
  obtain ⟨key, hkey, h⟩ := Result.bind_eq_ok.mp h
  obtain ⟨columns, -, h⟩ := Result.bind_eq_ok.mp h
  split at h
  · cases h
    exact hkey
  · cases h

/-- Let calls write and remove model instances, of which those that can be encoded are decoded to
the same ones. Each call answers what it means for a ledger, which is a map from names of
identifiers to instances in the order in which the names came; and one that fails leaves the store
as it was. An identifier reads the instance that the ledger holds under its name, whatever its
lifecycle, just as the query for the identifier reads it. The index lists the identifiers of all
instances that the ledger holds, each once and in its order; for this, the ledger may hold no more
of them than a cursor can count. -/
theorem storage_ledger (catalog : Catalog) (schema : Schema) (registry : Registry)
    (layout : Layout) (config : ReadConfig) (idField : String) {calls : List (StorageCall Datum)}
    (hround : ∀ call ∈ calls, ∀ a ∈ call.records, ∀ r, encode registry layout a = .ok r →
      ∃ back, decode schema r = .ok back ∧ back.same a = true) :
    let s := storage catalog schema registry layout config idField
    ∃ answers store, ∃ ledger held : Ledger Datum,
      s.performAll Store.backend calls {} = (answers, store) ∧
      Ledger.performAll s calls [] = (answers, ledger) ∧
      (Assoc.keys ledger).Nodup ∧
      List.Forall₂ (fun entry own => own.1 = entry.1 ∧ own.2.same entry.2 = true) ledger held ∧
      (∀ call e, (s.perform Store.backend call store).1 = .error e →
        (s.perform Store.backend call store).2 = store) ∧
      (∀ (id : Datum) mask, match id.keyName with
        | .error e => (s.read Store.backend id mask store).1 = .error e
        | .ok name => (s.read Store.backend id mask store).1 =
            .ok ((Assoc.get? name held).map (s.reader.codec.mask mask))) ∧
      (∀ id mask count,
        ((Reading.unopened (s.unfiltered.prepare { ids := [id], mask })).take s.unfiltered
            Store.backend (count + 1) store).1 =
          Reading.single (s.read Store.backend id mask store).1) ∧
      (ledger.length < 10 ^ Number.maxDigits → ∀ count,
        (s.index Store.backend count store).1 =
          ((held.take count).map fun own => layout.idOf own.2, none)) := by
  intro s
  have hempty : List.Forall₂ (s.Stands fun back a => back.same a = true) [] ({} : Store).records :=
    .nil
  have hids : s.StoresById := storesById_storage catalog schema registry layout config idField
  obtain ⟨hanswers, hstands⟩ := Storage.performAll_ledger hids hround hempty
  -- Reading sees of the stored records only what they are decoded to.
  obtain ⟨held, hsame, hholds⟩ := Storage.exists_held hstands
  have hnodup : (Assoc.keys (Ledger.performAll s calls []).2).Nodup :=
    Ledger.nodup_performAll s calls List.nodup_nil
  refine ⟨_, _, _, held, rfl, Prod.ext hanswers.symm rfl, hnodup, hsame,
    fun call e => Storage.perform_of_error, fun id mask => ?_,
    Storage.take_eq_read s _, fun hlength => ?_⟩
  · cases hname : id.keyName with
    | error e => exact Storage.read_of_keyOf_error (Layout.keyOf_eq_error hname) _ mask
    | ok name => exact Storage.read_of_holds hholds hname mask
  · rw [hsame.length_eq] at hlength
    exact Storage.index_of_holds hholds hlength

/-- An instance comes back whenever it can be read from its payload. -/
theorem exists_back {registry : Registry} {layout : Layout} {schema : Schema} {a : Datum}
    (h : ((payload a).toOption.bind schema.read?).any (·.same a) = true) {r : Record}
    (hr : encode registry layout a = .ok r) :
    ∃ back, decode schema r = .ok back ∧ back.same a = true := by
  obtain ⟨key, -, hr⟩ := Result.bind_eq_ok.mp hr
  obtain ⟨columns, -, hr⟩ := Result.bind_eq_ok.mp hr
  cases hpayload : payload a with
  | error e =>
    rw [hpayload] at hr
    cases hr
  | ok bytes =>
    rw [hpayload] at h hr
    cases hr
    have h : (schema.read? bytes).any (·.same a) = true := h
    rw [decode]
    cases hback : schema.read? bytes with
    | none =>
      rw [hback] at h
      cases h
    | some back =>
      rw [hback] at h
      exact ⟨back, rfl, h⟩

/-- An archived note that is written, and is written again beside one that has no identifier; and a
note that is not there. -/
theorem storage_ledger_archived :
    let note : Schema := ⟨"Note", [.mk "id" .text none, .mk "archived" .boolean none]⟩
    let columns : List Column := [⟨archivedColumn, .boolean, fun d => d.part "archived"⟩,
      ⟨deletedColumn, .boolean, fun _ => .boolean false⟩]
    let layout : Layout := ⟨"Note", columns, "id", none, by decide⟩
    let named (id : String) : Datum :=
      note.construct [("id", .text id), ("archived", .boolean true)]
    let s := storage [note] note .default layout .default "id"
    let calls := [.write (named "a"), .writeAll [named "a", named ""], .delete (.text "b")]
    ∃ store back, s.performAll Store.backend calls {} =
        ([.ok none, .error (.query .emptyIdentifier .null), .ok (some false)], store) ∧
      (s.read Store.backend (.text "a") {} store).1 = .ok (some back) ∧
      back.same (named "a") = true ∧ (s.index Store.backend 5 store).1.1.length = 1 := by
  intro note columns layout named s calls
  have hid (id : String) : layout.idOf (named id) = .text id := by
    rw [Layout.idOf, Datum.resolve_of_undotted (by decide)]
    rfl
  have hread : ((payload (named "a")).toOption.bind note.read?).any
      (·.same (named "a")) = true := by
    decide +kernel
  have hencode : ∃ r, encode .default layout (named "a") = .ok r := by
    rw [encode, hid]
    exact ⟨_, rfl⟩
  have hunnamed : encode .default layout (named "") = .error (.query .emptyIdentifier .null) := by
    rw [encode, hid]
    rfl
  have hround : ∀ call ∈ calls, ∀ a ∈ call.records, ∀ r, encode .default layout a = .ok r →
      ∃ back, decode note r = .ok back ∧ back.same a = true := by
    have heither : ∀ call ∈ calls, ∀ a ∈ call.records, a = named "a" ∨ a = named "" := by
      simp [calls, StorageCall.records]
    intro call hcall a ha r hr
    obtain rfl | rfl := heither call hcall a ha
    · exact exists_back hread hr
    · rw [hunnamed] at hr
      cases hr
  have hmeant : Ledger.performAll s calls [] =
      ([.ok none, .error (.query .emptyIdentifier .null), .ok (some false)],
        [("a", named "a")]) := by
    obtain ⟨r, hr⟩ := hencode
    -- The second note has no key, so that the batch is refused as a whole.
    have hwritten : [named "a"].mapM s.reader.codec.encode = .ok [r] :=
      Result.mapM_eq_ok.mpr (.cons hr .nil)
    have hrefused : [named "a", named ""].mapM s.reader.codec.encode =
        .error (.query .emptyIdentifier .null) := by
      rw [List.mapM_cons, List.mapM_cons, show s.reader.codec.encode (named "a") = .ok r from hr,
        show s.reader.codec.encode (named "") = _ from hunnamed]
      rfl
    have hentered : Ledger.enter s [] (named "a") = [("a", named "a")] := by
      rw [Ledger.enter, show s.idOf (named "a") = .text "a" from hid "a"]
      rfl
    simp only [calls, Ledger.performAll, Ledger.perform, Ledger.enterAll, hwritten, hrefused,
      List.foldl_cons, List.foldl_nil, hentered]
    rfl
  obtain ⟨answers, store, ledger, held, hrun, hledger, -, hsame, -, hreads, -, hindex⟩ :=
    storage_ledger [note] note .default layout .default "id" hround
  rw [hmeant] at hledger
  cases hledger
  obtain ⟨⟨name, back⟩, rest, ⟨rfl, hback⟩, hrest, rfl⟩ := List.forall₂_cons_left_iff.mp hsame
  obtain rfl := List.forall₂_nil_left_iff.mp hrest
  have hlength : [("a", named "a")].length < 10 ^ Number.maxDigits :=
    Cursor.lt_of_le_maxDigits (by decide : 1 ≤ Number.maxDigits)
  refine ⟨store, back, hrun, hreads (.text "a") {}, hback, ?_⟩
  rw [hindex hlength 5]
  rfl

end Model

end RecordStore
