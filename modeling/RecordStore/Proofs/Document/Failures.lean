import RecordStore.Document.Backend
import RecordStore.Document.Script
import RecordStore.Proofs.Document.Record

/-!
# Failures of the database

An operation of the document backend ends at the first request that fails: it makes no further one, and its
error tells the failure (`DocumentBackend.failure_ends`). What has been asked of the database until then is
told by a database that keeps a log of its requests, each with how it failed; keeping the log changes
nothing else. For writing, the log is given in full (`DocumentBackend.Writes`).
-/

namespace RecordStore

/-- A record without reserved columns has a document. -/
theorem Record.toDocument_of_unreserved {r : Record} (h : r.reservedColumns = []) :
    r.toDocument = .ok r.document := by
  rw [toDocument, h]
  rfl

/-- A record with reserved columns is refused. -/
theorem Record.toDocument_of_reserved {r : Record} (h : r.reservedColumns ≠ []) :
    r.toDocument = .error (.document .storage (.reservedColumns r.reservedColumns)) := by
  rw [toDocument]
  split
  · next hnone => exact absurd hnone h
  · rfl

/-! ## Logged requests -/

/-- A request to a database: the calls that it consists of, and its failure if it failed. -/
structure DatabaseRequest where
  calls : List DatabaseCall
  failure? : Option DatabaseFailure := none

namespace Database

variable {δ α : Type}

/-- An operation whose request is logged. -/
def logged (calls : List DatabaseCall) (operation : δ → DatabaseReply δ α)
    (s : δ × List DatabaseRequest) : DatabaseReply (δ × List DatabaseRequest) α :=
  match operation s.1 with
  | (.ok a, w) => (.ok a, (w, s.2 ++ [⟨calls, none⟩]))
  | (.error failure, w) => (.error failure, (w, s.2 ++ [⟨calls, some failure⟩]))

/-- The database that also logs its requests. -/
def logging (db : Database δ) : Database (δ × List DatabaseRequest) where
  find collection clause := logged [.find collection clause] (db.find collection clause)
  findPage collection clause keys offset count :=
    logged [.find collection clause, .sort keys, .skip offset, .limit count]
      (db.findPage collection clause keys offset count)
  replace collection id doc := logged [.replace collection id doc] (db.replace collection id doc)
  remove collection ids := logged [.remove collection ids] (db.remove collection ids)
  createIndex collection field := logged [.createIndex collection field] (db.createIndex collection field)

end Database

/-- An operation of the document backend, with its arguments. -/
inductive DocumentOperation
  | lookup (keys : List Key)
  | runQuery (q : NativeQuery) (size : Int) (cursor : Option String) (levels : Nat)
  | put (records : List Record)
  | delete (keys : List Key)
  | ensureIndexes (l : Layout)

/-- How errors name an operation. -/
def DocumentOperation.action : DocumentOperation → String
  | .lookup _ => "Lookup"
  | .runQuery q _ _ _ => "Query on " ++ q.kind
  | .put _ => "Write"
  | .delete _ => "Delete"
  | .ensureIndexes l => "Index creation on " ++ l.kind

namespace DocumentBackend

variable {δ α β : Type}

/-- An operation, whatever it answers. -/
def perform (b : DocumentBackend δ) : DocumentOperation → δ → Outcome δ Unit
  | .lookup keys, w => ((b.lookup keys w).1.map fun _ => (), (b.lookup keys w).2)
  | .runQuery q size cursor levels, w =>
    ((b.runQuery q size cursor w levels).1.map fun _ => (), (b.runQuery q size cursor w levels).2)
  | .put records, w => b.put records w
  | .delete keys, w => b.delete keys w
  | .ensureIndexes l, w => ((b.ensureIndexes l w).1.map fun _ => (), (b.ensureIndexes l w).2)

/-- The document backend over the database that logs its requests. -/
def logging (b : DocumentBackend δ) : DocumentBackend (δ × List DatabaseRequest) where
  database := b.database.logging
  collectionPrefix := b.collectionPrefix

section

variable (b : DocumentBackend δ) (collection : String)

theorem logging_collection (kind : String) : b.logging.collection kind = b.collection kind := rfl

theorem logging_find (clause : Clause) : b.logging.database.find collection clause =
    Database.logged [.find collection clause] (b.database.find collection clause) := rfl

theorem logging_findPage (clause : Clause) (keys : List SortKey) (offset count : Nat) :
    b.logging.database.findPage collection clause keys offset count =
      Database.logged [.find collection clause, .sort keys, .skip offset, .limit count]
        (b.database.findPage collection clause keys offset count) := rfl

theorem logging_replace (id : String) (doc : Document) :
    b.logging.database.replace collection id doc =
      Database.logged [.replace collection id doc] (b.database.replace collection id doc) := rfl

theorem logging_remove (ids : List String) : b.logging.database.remove collection ids =
    Database.logged [.remove collection ids] (b.database.remove collection ids) := rfl

theorem logging_createIndex (field : String) : b.logging.database.createIndex collection field =
    Database.logged [.createIndex collection field] (b.database.createIndex collection field) := rfl

end

/-! ## Ends of operations -/

/-- How an operation with some requests ends: none of them failed, or the last one did and the operation
fails with it. -/
inductive Ends (action : String) : List DatabaseRequest → Except Error α → Prop
  | undisturbed {requests : List DatabaseRequest} {result : Except Error α}
      (h : ∀ request ∈ requests, request.failure? = none) : Ends action requests result
  | failed {before : List DatabaseRequest} {calls : List DatabaseCall} {failure : DatabaseFailure}
      (h : ∀ request ∈ before, request.failure? = none) :
      Ends action (before ++ [⟨calls, some failure⟩]) (.error (failure.toError action))

/-- An operation over the logging database has the outcome of the operation itself, and its requests are
added to the log. -/
def Logs (action : String) (log : List DatabaseRequest) (outcome : Outcome (δ × List DatabaseRequest) α)
    (plain : Outcome δ α) : Prop :=
  ∃ requests, outcome = (plain.1, (plain.2, log ++ requests)) ∧ Ends action requests plain.1

/-- A request that succeeded before the others changes nothing about how they end. -/
theorem Ends.cons {action : String} {requests : List DatabaseRequest} {result : Except Error α}
    (h : Ends action requests result) (calls : List DatabaseCall) :
    Ends action (⟨calls, none⟩ :: requests) result := by
  cases h with
  | undisturbed h => exact .undisturbed (List.forall_mem_cons.mpr ⟨rfl, h⟩)
  | @failed before last failure h =>
    exact @Ends.failed _ action (⟨calls, none⟩ :: before) last failure (List.forall_mem_cons.mpr ⟨rfl, h⟩)

/-- A changed answer ends as before. -/
theorem Ends.map {action : String} {requests : List DatabaseRequest} {result : Except Error α}
    (h : Ends action requests result) (f : α → β) : Ends action requests (result.map f) := by
  cases h with
  | undisturbed h => exact .undisturbed h
  | failed h => exact .failed h

/-- A request that failed is the only one, and the last one. -/
theorem Ends.of_failed {action : String} {requests before after : List DatabaseRequest}
    {result : Except Error α} (h : Ends action requests result) {calls : List DatabaseCall}
    {failure : DatabaseFailure} (hrequests : requests = before ++ ⟨calls, some failure⟩ :: after) :
    (∀ request ∈ before, request.failure? = none) ∧ after = [] ∧
      result = .error (failure.toError action) := by
  cases h with
  | undisturbed h =>
    have hnone := h ⟨calls, some failure⟩ (by rw [hrequests]; simp)
    cases hnone
  | @failed earlier last failing h =>
    rcases List.eq_nil_or_concat after with rfl | ⟨more, final, rfl⟩
    · obtain ⟨rfl, hlast⟩ := List.append_inj' hrequests rfl
      cases hlast
      exact ⟨h, rfl, rfl⟩
    · -- Otherwise the failed request would be among those that have succeeded.
      rw [List.concat_eq_append, ← List.cons_append, ← List.append_assoc] at hrequests
      obtain ⟨rfl, -⟩ := List.append_inj' hrequests rfl
      have hnone := h ⟨calls, some failure⟩ (List.mem_append_right _ List.mem_cons_self)
      cases hnone

variable {action : String} {log : List DatabaseRequest} {outcome : Outcome (δ × List DatabaseRequest) α}
  {plain : Outcome δ α}

/-- Without a request, nothing is logged. -/
theorem logs_none (result : Except Error α) (w : δ) :
    Logs action log (result, (w, log)) (result, w) :=
  ⟨[], by rw [List.append_nil], .undisturbed (List.forall_mem_nil _)⟩

/-- A changed answer logs the same requests. -/
theorem Logs.map (h : Logs action log outcome plain) (f : α → β) :
    Logs action log (outcome.1.map f, outcome.2) (plain.1.map f, plain.2) := by
  obtain ⟨requests, rfl, hends⟩ := h
  exact ⟨requests, rfl, hends.map f⟩

/-- A request that fails is the last one. -/
theorem logs_failed (calls : List DatabaseCall) (failure : DatabaseFailure) (w : δ) :
    Logs (α := α) action log (.error (failure.toError action), (w, log ++ [⟨calls, some failure⟩]))
      (.error (failure.toError action), w) :=
  ⟨_, rfl, @Ends.failed _ action [] calls failure (List.forall_mem_nil _)⟩

/-- A request that succeeds is followed by what comes next. -/
theorem Logs.after {calls : List DatabaseCall}
    (h : Logs action (log ++ [⟨calls, none⟩]) outcome plain) : Logs action log outcome plain := by
  obtain ⟨requests, rfl, hends⟩ := h
  exact ⟨⟨calls, none⟩ :: requests, by rw [List.append_assoc, List.singleton_append], hends.cons calls⟩

/-! ## Requests of the operations -/

/-- The search for groups logs one request for each group. -/
theorem logs_findGroups (b : DocumentBackend δ) (sought : List (Json × List String))
    (found : List (String × Record)) (w : δ) (log : List DatabaseRequest) :
    Logs "Lookup" log (b.logging.findGroups sought found (w, log)) (b.findGroups sought found w) := by
  induction sought generalizing found w log with
  | nil => exact logs_none _ _
  | cons group rest ih =>
    simp only [findGroups, logging_collection, logging_find, Database.logged]
    generalize b.database.find _ _ w = answer
    obtain ⟨failure | docs, w⟩ := answer
    · exact logs_failed _ failure w
    · simp only
      cases docs.foldlM noteDocument found with
      -- A document that cannot be read ends the lookup without a further request.
      | error e => exact .after (logs_none _ _)
      | ok found => exact .after (ih found w _)

/-- A lookup picks the slots of its keys from all that is found. -/
theorem lookup_eq_findGroups (b : DocumentBackend δ) (keys : List Key) (w : δ) :
    b.lookup keys w =
      ((b.findGroups (groups keys) [] w).1.map fun found => keys.map fun key => Assoc.get? key.toText found,
        (b.findGroups (groups keys) [] w).2) := by
  rw [lookup]
  obtain ⟨result, w⟩ := b.findGroups (groups keys) [] w
  cases result <;> rfl

theorem logs_lookup (b : DocumentBackend δ) (keys : List Key) (w : δ) (log : List DatabaseRequest) :
    Logs "Lookup" log (b.logging.lookup keys (w, log)) (b.lookup keys w) := by
  rw [lookup_eq_findGroups, lookup_eq_findGroups]
  exact (logs_findGroups b _ _ w log).map _

/-- The search for a page logs one request. -/
theorem logs_findPage (b : DocumentBackend δ) (q : NativeQuery) (offset count : Nat) (w : δ)
    (log : List DatabaseRequest) : Logs ("Query on " ++ q.kind) log
      (b.logging.findPage q offset count (w, log)) (b.findPage q offset count w) := by
  simp only [findPage, logging_collection, logging_findPage, Database.logged]
  cases Clause.ofQuery q with
  | error e => exact logs_none _ _
  | ok clause =>
    simp only
    generalize b.database.findPage _ _ _ _ _ w = answer
    obtain ⟨failure | docs, w⟩ := answer
    · exact logs_failed _ failure w
    · exact .after (logs_none _ _)

theorem logs_runQuery (b : DocumentBackend δ) (q : NativeQuery) (size : Int) (cursor : Option String)
    (levels : Nat) (w : δ) (log : List DatabaseRequest) : Logs ("Query on " ++ q.kind) log
      (b.logging.runQuery q size cursor (w, log) levels) (b.runQuery q size cursor w levels) := by
  rw [runQuery, runQuery]
  by_cases hsize : size ≤ 0
  · rw [if_pos hsize, if_pos hsize]
    exact logs_none _ _
  rw [if_neg hsize, if_neg hsize]
  cases Cursor.toOffset cursor levels with
  | error e => exact logs_none _ _
  | ok offset =>
    simp only
    split
    · exact logs_none _ _
    · exact logs_findPage ..

theorem logs_put (b : DocumentBackend δ) (records : List Record) (w : δ) (log : List DatabaseRequest) :
    Logs "Write" log (b.logging.put records (w, log)) (b.put records w) := by
  induction records generalizing w log with
  | nil => exact logs_none _ _
  | cons r rest ih =>
    simp only [put, logging_collection, logging_replace, Database.logged]
    cases r.toDocument with
    | error e => exact logs_none _ _
    | ok doc =>
      simp only
      generalize b.database.replace _ _ _ w = answer
      obtain ⟨failure | _, w⟩ := answer
      · exact logs_failed _ failure w
      · exact .after (ih w _)

/-- The removal of groups logs one request for each group. -/
theorem logs_removeGroups (b : DocumentBackend δ) (gone : List (Json × List String)) (w : δ)
    (log : List DatabaseRequest) :
    Logs "Delete" log (b.logging.removeGroups gone (w, log)) (b.removeGroups gone w) := by
  induction gone generalizing w log with
  | nil => exact logs_none _ _
  | cons group rest ih =>
    simp only [removeGroups, logging_collection, logging_remove, Database.logged]
    generalize b.database.remove _ _ w = answer
    obtain ⟨failure | _, w⟩ := answer
    · exact logs_failed _ failure w
    · exact .after (ih w _)

/-- The creation of indexes logs one request for each field. -/
theorem logs_createIndexes (b : DocumentBackend δ) (kind : String) (fields : List String) (w : δ)
    (log : List DatabaseRequest) : Logs ("Index creation on " ++ kind) log
      (b.logging.createIndexes kind fields (w, log)) (b.createIndexes kind fields w) := by
  induction fields generalizing w log with
  | nil => exact logs_none _ _
  | cons field rest ih =>
    simp only [createIndexes, logging_collection, logging_createIndex, Database.logged]
    generalize b.database.createIndex _ _ w = answer
    obtain ⟨failure | name, w⟩ := answer
    · exact logs_failed _ failure w
    · simp only
      obtain ⟨requests, hlogging, hends⟩ := ih w (log ++ [⟨[.createIndex (b.collection kind) field], none⟩])
      rw [hlogging, List.append_assoc, List.singleton_append]
      generalize b.createIndexes kind rest w = outcome at hends ⊢
      -- The other names are added behind the one of this index.
      obtain ⟨e | names, w⟩ := outcome
      · exact ⟨_, rfl, hends.cons _⟩
      · exact ⟨_, rfl, (hends.map (name :: ·)).cons _⟩

/-- Every operation of the backend logs its requests and ends with the first one that fails. -/
theorem logs_perform (b : DocumentBackend δ) (operation : DocumentOperation) (w : δ)
    (log : List DatabaseRequest) :
    Logs operation.action log (b.logging.perform operation (w, log)) (b.perform operation w) := by
  cases operation with
  | lookup keys => exact (logs_lookup b keys w log).map _
  | runQuery q size cursor levels => exact (logs_runQuery b q size cursor levels w log).map _
  | put records => exact logs_put b records w log
  | delete keys => exact logs_removeGroups b (groups keys) w log
  | ensureIndexes l => exact (logs_createIndexes b l.kind _ w log).map _

/-! ## Written records -/

/-- The request that has written the document of a record. -/
def written (b : DocumentBackend δ) (r : Record) : DatabaseRequest :=
  { calls := [.replace (b.collection r.key.kind.display) r.key.toText r.document] }

/-- The requests with which records are written, and how that ends. Documents are written one after the
other, each once: those of all records; or those before the first record with a column of a reserved name,
for which nothing is asked of the database; or those before the first one whose request fails. -/
inductive Writes (b : DocumentBackend δ) :
    List Record → List DatabaseRequest → Except Error Unit → Prop
  | all {records : List Record} (h : ∀ r ∈ records, r.reservedColumns = []) :
      Writes b records (records.map b.written) (.ok ())
  | clash {before rest : List Record} {r : Record} (h : ∀ r ∈ before, r.reservedColumns = [])
      (clash : r.reservedColumns ≠ []) :
      Writes b (before ++ r :: rest) (before.map b.written)
        (.error (.document .storage (.reservedColumns r.reservedColumns)))
  | failed {before rest : List Record} {r : Record} {failure : DatabaseFailure}
      (h : ∀ r ∈ before, r.reservedColumns = []) (unreserved : r.reservedColumns = []) :
      Writes b (before ++ r :: rest)
        (before.map b.written ++ [{ b.written r with failure? := some failure }])
        (.error (failure.toError "Write"))

/-- A record that is written first adds its request in front. -/
theorem Writes.cons {b : DocumentBackend δ} {records : List Record} {requests : List DatabaseRequest}
    {result : Except Error Unit} (h : Writes b records requests result) {r : Record}
    (hr : r.reservedColumns = []) : Writes b (r :: records) (b.written r :: requests) result := by
  cases h with
  | all h => exact .all (List.forall_mem_cons.mpr ⟨hr, h⟩)
  | @clash before rest last h clash =>
    exact @Writes.clash _ b (r :: before) rest last (List.forall_mem_cons.mpr ⟨hr, h⟩) clash
  | @failed before rest last failure h unreserved =>
    exact @Writes.failed _ b (r :: before) rest last failure (List.forall_mem_cons.mpr ⟨hr, h⟩)
      unreserved

/-- A write replaces the records one after the other, as far as it comes. -/
theorem writes_put (b : DocumentBackend δ) (records : List Record) (w : δ) (log : List DatabaseRequest) :
    ∃ requests, b.logging.put records (w, log) =
        ((b.put records w).1, ((b.put records w).2, log ++ requests)) ∧
      Writes b records requests (b.put records w).1 := by
  induction records generalizing w log with
  | nil => exact ⟨[], by rw [List.append_nil]; rfl, .all (List.forall_mem_nil _)⟩
  | cons r rest ih =>
    simp only [put, logging_collection, logging_replace, Database.logged]
    by_cases hr : r.reservedColumns = []
    · rw [Record.toDocument_of_unreserved hr]
      simp only
      -- The first record is written before the others are looked at.
      generalize b.database.replace _ _ _ w = answer
      obtain ⟨failure | _, w⟩ := answer
      · exact ⟨_, rfl, @Writes.failed _ b [] rest r failure (List.forall_mem_nil _) hr⟩
      · obtain ⟨requests, hput, hwrites⟩ := ih w (log ++ [b.written r])
        refine ⟨b.written r :: requests, ?_, hwrites.cons hr⟩
        rw [List.append_assoc, List.singleton_append] at hput
        exact hput
    · rw [Record.toDocument_of_reserved hr]
      exact ⟨[], by rw [List.append_nil], @Writes.clash _ b [] rest r (List.forall_mem_nil _) hr⟩

/-- Let an operation of the document backend be performed on a database in any state, whatever it
answers. The database logs the requests, which changes nothing else. A request that fails is the
last one, and all before it have succeeded; the operation fails with a connection error if the
database cannot be reached, and with a storage error if it refuses the request. Writing records has
written exactly the documents of those before the one at which it ends (`Writes`). -/
theorem failure_ends (b : DocumentBackend δ) (w : δ) :
    (∀ operation : DocumentOperation, ∃ requests,
      b.logging.perform operation (w, []) =
        ((b.perform operation w).1, ((b.perform operation w).2, requests)) ∧
      ∀ before calls failure after, requests = before ++ ⟨calls, some failure⟩ :: after →
        (∀ request ∈ before, request.failure? = none) ∧ after = [] ∧
        (b.perform operation w).1 = .error (failure.toError operation.action) ∧
        (∀ text, failure = .lost text → (b.perform operation w).1 =
          .error (.document .connection (.failed operation.action text))) ∧
        ∀ text, failure = .refused text → (b.perform operation w).1 =
          .error (.document .storage (.failed operation.action text))) ∧
    ∀ records, ∃ requests,
      b.logging.perform (.put records) (w, []) =
        ((b.perform (.put records) w).1, ((b.perform (.put records) w).2, requests)) ∧
      Writes b records requests (b.perform (.put records) w).1 := by
  refine ⟨fun operation => ?_, fun records => writes_put b records w []⟩
  obtain ⟨requests, hperform, hends⟩ := logs_perform b operation w []
  refine ⟨requests, hperform, ?_⟩
  intro before calls failure after hrequests
  obtain ⟨hbefore, hafter, hresult⟩ := hends.of_failed hrequests
  refine ⟨hbefore, hafter, hresult, ?_, ?_⟩
  · rintro text rfl
    exact hresult
  · rintro text rfl
    exact hresult

/-- Keys of three kinds are deleted, and the database is lost at the second request. -/
theorem failure_ends_interrupted :
    let cat : Key := ⟨⟨.string "Cat", .string "a", rfl, rfl⟩, []⟩
    let dog : Key := ⟨⟨.string "Dog", .string "b", rfl, rfl⟩, []⟩
    let deleting : DocumentOperation := .delete [cat, dog, ⟨⟨.string "Cow", .string "c", rfl, rfl⟩, []⟩]
    let b : DocumentBackend DatabaseScript := { database := DatabaseScript.database }
    let w : DatabaseScript := { replies := [.ok [], .error (.lost "down")] }
    (b.logging.perform deleting (w, [])).2.2 =
        [⟨[.remove "Cat" [cat.toText]], none⟩] ++ [⟨[.remove "Dog" [dog.toText]], some (.lost "down")⟩] ∧
      (b.perform deleting w).1 = .error (.document .connection (.failed "Delete" "down")) := by
  intro cat dog deleting b w
  have hlog : (b.logging.perform deleting (w, [])).2.2 =
      [⟨[.remove "Cat" [cat.toText]], none⟩] ++ [⟨[.remove "Dog" [dog.toText]], some (.lost "down")⟩] := rfl
  obtain ⟨requests, hperform, hfails⟩ := (failure_ends b w).1 deleting
  have hrequests := (congrArg (fun outcome => outcome.2.2) hperform).symm.trans hlog
  obtain ⟨-, -, -, hlost, -⟩ := hfails _ _ _ [] hrequests
  exact ⟨hlog, hlost "down" rfl⟩

end DocumentBackend

end RecordStore
