import RecordStore.Backend
import RecordStore.Cursor
import RecordStore.Document.Database
import RecordStore.Document.Record
import RecordStore.Layout

/-!
# The document backend

A backend over a document database, with one collection for each kind of record. Continuation
cursors are offsets; a page is one call that asks for one document more than wanted, which shows
whether more follow. An operation ends at the first call that fails.
-/

namespace RecordStore

/-- A backend over a document database. -/
structure DocumentBackend (δ : Type) where
  database : Database δ
  /-- What stands before a kind in the name of its collection. -/
  collectionPrefix : String := ""

namespace DocumentBackend

variable {δ : Type}

/-- The collection that holds the records of a kind. -/
def collection (b : DocumentBackend δ) (kind : String) : String := b.collectionPrefix ++ kind

/-- Keys as identifiers, grouped by kind; kinds are in the order in which they first occur. -/
def groups (keys : List Key) : List (Json × List String) :=
  keys.foldl (fun done key =>
    Assoc.put key.kind ((Assoc.get? key.kind done).getD [] ++ [key.toText]) done) []

/-- Identifiers in alphabetical order, each once. -/
def distinctIds (ids : List String) : List String :=
  Error.sortTexts (ids.foldl (fun done id => if done.contains id then done else done ++ [id]) [])

/-- Notes the record of a document under the document's identifier. -/
def noteDocument (found : List (String × Record)) (doc : Document) :
    Except Error (List (String × Record)) := do
  let record ← doc.toRecord
  match Assoc.get? Document.idField doc with
  | none => .error (.foreign "KeyError" (Text.quoted Document.idField))
  | some id =>
    match ← id.name? with
    -- A document whose identifier is no text is found under no key.
    | some name => return Assoc.put name record found
    | none => return found

/-- Looks the groups up one after the other and notes what is found. -/
def findGroups (b : DocumentBackend δ) :
    List (Json × List String) → List (String × Record) → δ → Outcome δ (List (String × Record))
  | [], found, w => (.ok found, w)
  | (kind, ids) :: rest, found, w =>
    match b.database.find (b.collection kind.display) (.oneOf (distinctIds ids)) w with
    | (.error failure, w) => (.error (failure.toError "Lookup"), w)
    | (.ok docs, w) =>
      match docs.foldlM noteDocument found with
      | .error e => (.error e, w)
      | .ok found => findGroups b rest found w

/-- One slot for each key, with one call for each kind among the keys. -/
def lookup (b : DocumentBackend δ) (keys : List Key) (w : δ) : Outcome δ (List (Option Record)) :=
  match b.findGroups (groups keys) [] w with
  | (.error e, w) => (.error e, w)
  | (.ok found, w) => (.ok (keys.map fun key => Assoc.get? key.toText found), w)

/-- The number of records that a page from an offset on may have. -/
def wanted (q : NativeQuery) (size : Int) (offset : Nat) : Int :=
  match q.effectiveLimit with
  | some limit => min size ((limit : Int) - offset)
  | none => size

/-- The page of the documents found from an offset on, one more than wanted if there are more. -/
def pageOf (q : NativeQuery) (offset count : Nat) (docs : List Document) : Except Error Page := do
  let records ← (docs.take count).mapM Document.toRecord
  let stop := offset + records.length
  return {
    records
    cursor := some (Cursor.ofOffset stop)
    -- The extra document shows that more follow, unless the limit ends here.
    more := count < docs.length && q.effectiveLimit.all (stop < ·) }

/-- The documents of a query from an offset on. -/
def findPage (b : DocumentBackend δ) (q : NativeQuery) (offset count : Nat) (w : δ) :
    Outcome δ Page :=
  match Clause.ofQuery q with
  | .error e => (.error e, w)
  | .ok clause =>
    match b.database.findPage (b.collection q.kind) clause (SortKey.ofQuery q) offset (count + 1) w with
    | (.error failure, w) => (.error (failure.toError ("Query on " ++ q.kind)), w)
    | (.ok docs, w) => (pageOf q offset count docs, w)

/-- One page of a query, whose cursor is read on a stack with room for so many levels. Where nothing
is wanted or can match, no call is made. -/
def runQuery (b : DocumentBackend δ) (q : NativeQuery) (size : Int) (cursor : Option String) (w : δ)
    (levels : Nat := Json.usualLevels) : Outcome δ Page :=
  if size ≤ 0 then (.error (.badValue .pageSize), w)
  else
    match Cursor.toOffset cursor levels with
    | .error e => (.error e, w)
    | .ok offset =>
      let count := wanted q size offset
      if count ≤ 0 || q.matchesNothing then (.ok {}, w) else b.findPage q offset count.toNat w

/-- Writes records one after the other. -/
def put (b : DocumentBackend δ) : List Record → δ → Outcome δ Unit
  | [], w => (.ok (), w)
  | r :: rest, w =>
    match r.toDocument with
    | .error e => (.error e, w)
    | .ok doc =>
      match b.database.replace (b.collection r.key.kind.display) r.key.toText doc w with
      | (.error failure, w) => (.error (failure.toError "Write"), w)
      | (.ok (), w) => put b rest w

/-- Removes the groups one after the other. -/
def removeGroups (b : DocumentBackend δ) : List (Json × List String) → δ → Outcome δ Unit
  | [], w => (.ok (), w)
  | (kind, ids) :: rest, w =>
    match b.database.remove (b.collection kind.display) ids w with
    | (.error failure, w) => (.error (failure.toError "Delete"), w)
    | (.ok (), w) => removeGroups b rest w

/-- Removes the records of some keys, in one request for each kind. -/
def delete (b : DocumentBackend δ) (keys : List Key) (w : δ) : Outcome δ Unit :=
  b.removeGroups (groups keys) w

/-- Creates indexes over fields one after the other. -/
def createIndexes (b : DocumentBackend δ) (kind : String) :
    List String → δ → Outcome δ (List String)
  | [], w => (.ok [], w)
  | field :: rest, w =>
    match b.database.createIndex (b.collection kind) field w with
    | (.error failure, w) => (.error (failure.toError ("Index creation on " ++ kind)), w)
    | (.ok name, w) =>
      match createIndexes b kind rest w with
      | (.error e, w) => (.error e, w)
      | (.ok names, w) => (.ok (name :: names), w)

/-- Creates the index over ancestors and one over each column of a layout. -/
def ensureIndexes (b : DocumentBackend δ) (l : Layout) (w : δ) : Outcome δ (List String) :=
  b.createIndexes l.kind (Document.ancestorsField :: l.columns.map Column.name) w

/-- The document backend as a backend, which reads cursors on a stack with room for so many levels. -/
def backend (b : DocumentBackend δ) (levels : Nat := Json.usualLevels) : Backend δ where
  lookup := b.lookup
  runQuery q size cursor w := b.runQuery q size cursor w levels
  put := b.put
  delete := b.delete

end DocumentBackend

end RecordStore
