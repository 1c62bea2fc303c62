import RecordStore.Document.Clause

/-!
# Document databases

What the document backend needs of a database: finding documents that meet a condition, replacing
and removing them by identifier, and creating indexes. Each call names a collection, takes the
database's state and leaves a new one, also when it fails.
-/

namespace RecordStore

/-- Why a call to a database fails. -/
inductive DatabaseFailure
  /-- The database cannot be reached. -/
  | lost (text : String)
  /-- The database refuses the call. -/
  | refused (text : String)
  /-- Something else goes wrong on the way. -/
  | other (error : Error)

namespace DatabaseFailure

/-- The error of an action that a failed call has ended. -/
def toError (action : String) : DatabaseFailure → Error
  | .lost text => .document .connection (.failed action text)
  | .refused text => .document .storage (.failed action text)
  | .other error => error

end DatabaseFailure

/-- The answer to a call, and the state that it leaves. -/
abbrev DatabaseReply (δ α : Type) : Type := Except DatabaseFailure α × δ

/-- A document database with states `δ`. -/
structure Database (δ : Type) where
  /-- The documents of a collection that meet a condition. -/
  find : String → Clause → δ → DatabaseReply δ (List Document)
  /-- The documents that meet a condition, in the order of a sort, without so many at the beginning
  and at most so many of them. -/
  findPage : String → Clause → List SortKey → Nat → Nat → δ → DatabaseReply δ (List Document)
  /-- Writes a document in the place of the one with this identifier, or as a new one. -/
  replace : String → String → Document → δ → DatabaseReply δ Unit
  /-- Removes the documents with these identifiers. -/
  remove : String → List String → δ → DatabaseReply δ Unit
  /-- Creates an index over a field, and says its name. -/
  createIndex : String → String → δ → DatabaseReply δ String

end RecordStore
