import RecordStore.Predicate.Matcher
import RecordStore.Query

/-!
# Codecs

A codec turns the records of a domain into stored records and back, cuts them down to a field mask,
and may name the predicate that stands in for an empty one.
-/

namespace RecordStore

/-- What turns the records of a type into stored ones and back. -/
structure Codec (α : Type) where
  encode : α → Except Error Record
  decode : Record → Except Error α
  /-- The record with the fields of a mask that is not empty. -/
  applyMask : FieldMask → α → α
  /-- The predicate of active records, if there is one. -/
  activeFilter : Option Predicate

namespace Codec

/-- The record with the fields of a mask; the empty mask keeps everything. -/
def mask {α : Type} (c : Codec α) (m : FieldMask) (a : α) : α :=
  if m.isEmpty then a else c.applyMask m a

/-- The predicate of records that are neither archived nor deleted. -/
def lifecycleFilter : Predicate :=
  .node .all [⟨.text archivedColumn, .equal, .boolean false⟩, ⟨.text deletedColumn, .equal, .boolean false⟩] []

/-- The predicate of active records for a layout with lifecycle columns. -/
def activeFilterOf (l : Layout) : Option Predicate :=
  if l.hasLifecycle then some lifecycleFilter else none

/-- The codec of records that are stored as they are; a mask keeps the columns that it lists. -/
def plain : Codec Record where
  encode r := .ok r
  decode r := .ok r
  applyMask m r := { r with columns := r.columns.filter fun c => m.paths.contains c.1 }
  activeFilter := none

end Codec

end RecordStore
