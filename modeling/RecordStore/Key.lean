import RecordStore.Error
import RecordStore.Json.Equality

/-!
# Keys

A key names a record by its kind and name and by the chain of keys above it. Kinds and names are
texts as a rule; a key that was read back from a document may hold other JSON values in their place.
None of them is empty.
-/

namespace RecordStore

namespace Json

/-- Whether a value counts as true: it is not null, false, zero or empty. -/
def isTruthy (value : Json) : Bool := (Datum.ofJson value).isTruthy

/-- The bare form of a value. -/
def display (value : Json) : String := (Datum.ofJson value).display

end Json

/-- One link of a key: a kind and a name. -/
structure Step where
  kind : Json
  name : Json
  kind_truthy : kind.isTruthy
  name_truthy : name.isTruthy
  deriving DecidableEq

namespace Step

/-- The link of a kind and a name; an empty kind is reported before an empty name. -/
def make (kind name : Json) : Except Error Step :=
  if hk : kind.isTruthy then
    if hn : name.isTruthy then .ok ⟨kind, name, hk, hn⟩ else .error (.badValue .emptyKeyName)
  else .error (.badValue .emptyKeyKind)

/-- The kind and the name of a link. Both can be written: texts, or values read from a document. -/
def toText (s : Step) : String := s.kind.display ++ ":" ++ s.name.display

end Step

/-- A key: its own link, and the links above it, the nearest one first. -/
structure Key where
  own : Step
  above : List Step
  deriving DecidableEq

namespace Key

/-- The kind of the record itself. -/
def kind (k : Key) : Json := k.own.kind

/-- The name of the record itself. -/
def name (k : Key) : Json := k.own.name

/-- The keys above, the nearest one first. -/
def ancestorsOf : List Step → List Key
  | [] => []
  | step :: rest => ⟨step, rest⟩ :: ancestorsOf rest

/-- The keys above, the nearest one first. -/
def ancestors (k : Key) : List Key := ancestorsOf k.above

/-- All links, the topmost one first. -/
def path (k : Key) : List Step := (k.own :: k.above).reverse

/-- The text of a path: kind and name of each link, the topmost one first. -/
def toText (k : Key) : String := "/".intercalate (k.path.map Step.toText)

/-- A key of a kind and name below another one. -/
def under (parent : Option Key) (kind name : Json) : Except Error Key := do
  let own ← Step.make kind name
  return ⟨own, match parent with
    | some p => p.own :: p.above
    | none => []⟩

/-- The key of a path, the topmost link first; an empty path is no key. -/
def ofPath (path : List (Json × Json)) : Except Error (Option Key) :=
  path.foldlM (fun above pair => some <$> under above pair.1 pair.2) none

/-- Whether a key lies below another one. -/
def descendsFrom (k ancestor : Key) : Bool := k.ancestors.contains ancestor

end Key

end RecordStore
