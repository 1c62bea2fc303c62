import RecordStore.Filter.Basic

/-!
# Backends

What the query engine needs of a key-value backend: reading by keys, running one page of a native
query, writing and removing. Each operation takes the backend's state and leaves a new one, also
when it fails.
-/

namespace RecordStore

/-- The outcome of an operation, and the state that it leaves. -/
abbrev Outcome (σ α : Type) : Type := Except Error α × σ

/-- A backend with states `σ`. -/
structure Backend (σ : Type) where
  /-- One slot for each key, in order; a slot is empty where no record is. -/
  lookup : List Key → σ → Outcome σ (List (Option Record))
  /-- One page of a query, of at most so many records, from a cursor on. -/
  runQuery : NativeQuery → Int → Option String → σ → Outcome σ Page
  /-- Creates or replaces records. -/
  put : List Record → σ → Outcome σ Unit
  /-- Removes records; keys without a record are passed over. -/
  delete : List Key → σ → Outcome σ Unit

end RecordStore
