import RecordStore.Backend

/-!
# Scripted and noting backends

A `Script` is a backend that answers queries from a list of pages and failures, whatever is asked,
and then with empty pages. `Backend.noting` makes any backend note the requests for pages.
-/

namespace RecordStore

/-- The answers to queries that are left. -/
abbrev Script : Type := List (Except Error Page)

namespace Script

/-- Takes the next answer. -/
def runQuery : Script → Outcome Script Page
  | [] => (.ok {}, [])
  | answer :: rest => (answer, rest)

/-- The script as a backend that holds no records by key. -/
def backend : Backend Script where
  lookup keys s := (.ok (keys.map fun _ => none), s)
  runQuery _ _ _ s := runQuery s
  put _ s := (.ok (), s)
  delete _ s := (.ok (), s)

end Script

/-- Requests for pages, each a size and a cursor. -/
abbrev Requests : Type := List (Int × Option String)

namespace Backend

variable {σ α : Type}

/-- An operation that leaves the noted requests as they are. -/
def keepNotes (operation : σ → Outcome σ α) (s : σ × Requests) : Outcome (σ × Requests) α :=
  match operation s.1 with
  | (result, w) => (result, (w, s.2))

/-- The backend that also notes the requests for pages. -/
def noting (b : Backend σ) : Backend (σ × Requests) where
  lookup keys := keepNotes (b.lookup keys)
  runQuery q size cursor s :=
    keepNotes (b.runQuery q size cursor) (s.1, s.2 ++ [(size, cursor)])
  put records := keepNotes (b.put records)
  delete keys := keepNotes (b.delete keys)

end Backend

end RecordStore
