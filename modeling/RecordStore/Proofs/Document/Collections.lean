import RecordStore.Document.Backend
import RecordStore.Document.Script

/-!
# Databases of collections

What writing, removing and looking up by identifiers need of a database is said by
`Database.KeepsCollections`: each collection is a map from identifiers to documents. A database that
is kept in one table meets this (`Database.keepsCollections_tables`), and so does a database whose
calls are recorded.
-/

namespace RecordStore.Database

variable {δ α : Type}

/-- Each collection is a map from identifiers to documents, which `entry` reads off a state. Every
call succeeds. Writing and removing change the entries of their identifiers and no others; looking
identifiers up changes none and gives the documents in any order. -/
structure KeepsCollections (db : Database δ) (entry : δ → String → String → Option Document) :
    Prop where
  find : ∀ (w : δ) (collection : String) {ids : List String}, ids.Nodup →
    ∃ docs w', db.find collection (.oneOf ids) w = (.ok docs, w') ∧
      docs.Perm (ids.filterMap (entry w collection)) ∧ entry w' = entry w
  replace : ∀ (w : δ) (collection : String) {id : String} {doc : Document},
    Assoc.get? Document.idField doc = some (.text id) →
    ∃ w', db.replace collection id doc w = (.ok (), w') ∧ ∀ other id',
      entry w' other id' = if other = collection ∧ id' = id then some doc else entry w other id'
  remove : ∀ (w : δ) (collection : String) (ids : List String),
    ∃ w', db.remove collection ids w = (.ok (), w') ∧ ∀ other id,
      entry w' other id = if other = collection ∧ id ∈ ids then none else entry w other id

/-! ## Recorded calls -/

/-- A call that is recorded, also when it fails. -/
def recorded (calls : List DatabaseCall) (operation : δ → DatabaseReply δ α)
    (s : δ × List DatabaseCall) : DatabaseReply (δ × List DatabaseCall) α :=
  match operation s.1 with
  | (reply, w) => (reply, (w, s.2 ++ calls))

/-- The database that also records its calls. -/
def recording (db : Database δ) : Database (δ × List DatabaseCall) where
  find collection clause := recorded [.find collection clause] (db.find collection clause)
  findPage collection clause keys offset count :=
    recorded [.find collection clause, .sort keys, .skip offset, .limit count]
      (db.findPage collection clause keys offset count)
  replace collection id doc :=
    recorded [.replace collection id doc] (db.replace collection id doc)
  remove collection ids := recorded [.remove collection ids] (db.remove collection ids)
  createIndex collection field :=
    recorded [.createIndex collection field] (db.createIndex collection field)

/-- A recorded lookup is the lookup with its call. -/
theorem recording_find {db : Database δ} {collection : String} {clause : Clause} {w w' : δ}
    {reply : Except DatabaseFailure (List Document)}
    (h : db.find collection clause w = (reply, w')) (calls : List DatabaseCall) :
    db.recording.find collection clause (w, calls) =
      (reply, (w', calls ++ [.find collection clause])) := by
  simp only [recording, recorded, h]

/-- Recording changes no entry. -/
theorem KeepsCollections.recording {db : Database δ} {entry : δ → String → String → Option Document}
    (h : db.KeepsCollections entry) : db.recording.KeepsCollections fun s => entry s.1 where
  find s collection ids hids := by
    obtain ⟨docs, w', hfind, hdocs, hentry⟩ := h.find s.1 collection hids
    exact ⟨docs, _, recording_find hfind s.2, hdocs, hentry⟩
  replace s collection id doc hid := by
    obtain ⟨w', hreplace, hentry⟩ := h.replace s.1 collection hid
    refine ⟨(w', s.2 ++ [.replace collection id doc]), ?_, hentry⟩
    simp only [Database.recording, recorded, hreplace]
  remove s collection ids := by
    obtain ⟨w', hremove, hentry⟩ := h.remove s.1 collection ids
    refine ⟨(w', s.2 ++ [.remove collection ids]), ?_, hentry⟩
    simp only [Database.recording, recorded, hremove]

/-! ## A database of one table -/

/-- Documents by their collections and identifiers. -/
abbrev Table : Type := List ((String × String) × Document)

/-- The database that is kept in one table. It looks documents up by identifiers only. -/
def tables : Database Table where
  find collection clause w :=
    match clause with
    | .oneOf ids => (.ok (ids.filterMap fun id => Assoc.get? (collection, id) w), w)
    | _ => (.error (.refused "only identifiers can be looked up"), w)
  findPage _ _ _ _ _ w := (.error (.refused "only identifiers can be looked up"), w)
  replace collection id doc w := (.ok (), Assoc.put (collection, id) doc w)
  remove collection ids w :=
    (.ok (), w.filter fun entry => !(entry.1.1 = collection && ids.contains entry.1.2))
  createIndex _ _ w := (.error (.refused "there are no indexes"), w)

/-- The entry of an identifier in a collection. -/
def tableEntry (w : Table) (collection id : String) : Option Document :=
  Assoc.get? (collection, id) w

/-- Tables in memory keep collections. -/
theorem keepsCollections_tables : tables.KeepsCollections tableEntry where
  find w collection ids _ := ⟨_, w, rfl, .refl _, rfl⟩
  replace w collection id doc _ := by
    refine ⟨_, rfl, fun other id' => ?_⟩
    by_cases hsame : other = collection ∧ id' = id
    · obtain ⟨rfl, rfl⟩ := hsame
      rw [if_pos ⟨rfl, rfl⟩, tableEntry, Assoc.get?_put_self]
    · have hne : (other, id') ≠ (collection, id) := fun h => hsame (Prod.mk.inj h)
      rw [if_neg hsame, tableEntry, Assoc.get?_put_of_ne hne, tableEntry]
  remove w collection ids := by
    refine ⟨_, rfl, fun other id => ?_⟩
    -- What is removed is filtered out, and nothing else.
    have hleft := Assoc.get?_filter
      (fun key : String × String => !(key.1 = collection && ids.contains key.2)) (other, id) w
    rw [tableEntry, tableEntry]
    refine hleft.trans ?_
    by_cases hgone : other = collection ∧ id ∈ ids
    · simp [hgone]
    · rw [if_neg hgone, if_pos]
      rw [Classical.not_and_iff_not_or_not] at hgone
      simpa using hgone

end RecordStore.Database
