import RecordStore.Document.Database

/-!
# A scripted document database

A database that answers its calls from a list of replies, whatever is asked, and then with nothing.
It notes every call.
-/

namespace RecordStore

/-- A call to a document database. -/
inductive DatabaseCall
  | find (collection : String) (clause : Clause)
  | sort (keys : List SortKey)
  | skip (count : Nat)
  | limit (count : Nat)
  | replace (collection id : String) (doc : Document)
  | remove (collection : String) (ids : List String)
  | createIndex (collection field : String)

/-- The state of a scripted database: the replies that are left, and the calls so far. -/
structure DatabaseScript where
  replies : List (Except DatabaseFailure (List Document)) := []
  calls : List DatabaseCall := []

namespace DatabaseScript

/-- Notes calls and takes the next reply. -/
def answer (calls : List DatabaseCall) (s : DatabaseScript) :
    DatabaseReply DatabaseScript (List Document) :=
  let calls := s.calls ++ calls
  match s.replies with
  | [] => (.ok [], ⟨[], calls⟩)
  | reply :: rest => (reply, ⟨rest, calls⟩)

/-- Notes a call and takes only from the next reply whether it fails. -/
def confirm {α : Type} (call : DatabaseCall) (result : DatabaseScript → α) (s : DatabaseScript) :
    DatabaseReply DatabaseScript α :=
  match s.answer [call] with
  | (reply, s) => (reply.map fun _ => result s, s)

/-- The name of the index that the last call has created. -/
def indexName (s : DatabaseScript) : String := "ix" ++ toString s.calls.length

/-- The script as a database. -/
def database : Database DatabaseScript where
  find collection clause := answer [.find collection clause]
  findPage collection clause keys offset count :=
    answer [.find collection clause, .sort keys, .skip offset, .limit count]
  replace collection id doc := confirm (.replace collection id doc) fun _ => ()
  remove collection ids := confirm (.remove collection ids) fun _ => ()
  createIndex collection field := confirm (.createIndex collection field) indexName

end DatabaseScript

end RecordStore
