import RecordStore.Backend
import RecordStore.Cursor
import RecordStore.Ordering

/-!
# A store in memory

Records in the order in which their keys were first written, with the number of lookups and queries
made and the page sizes that were asked for. Queries filter the records, sort them and cut a page
out of the result; their cursors are offsets into it.
-/

namespace RecordStore

/-- Whether no two records have the same key. -/
def Record.KeysDistinct (records : List Record) : Prop := (records.map Record.key).Nodup

/-- Records with distinct keys, and what was asked of them. -/
structure Store where
  records : List Record := []
  lookups : Nat := 0
  queries : Nat := 0
  pageSizes : List Int := []
  /-- The levels that the stack has room for where a cursor is read. -/
  levels : Nat := Json.usualLevels
  distinct : Record.KeysDistinct records := by exact List.nodup_nil

namespace Store

/-- The record of a key. -/
def get? (s : Store) (key : Key) : Option Record := s.records.find? fun r => r.key = key

/-- Writes a record; a present key keeps its place. -/
def putRecord : List Record → Record → List Record
  | [], r => [r]
  | old :: rest, r => if old.key = r.key then r :: rest else old :: putRecord rest r

/-- A record that is put adds at most its own key. -/
theorem mem_keys_putRecord (key : Key) (records : List Record) (r : Record) :
    key ∈ (putRecord records r).map Record.key ↔ key = r.key ∨ key ∈ records.map Record.key := by
  induction records with
  | nil => simp [putRecord]
  | cons old rest ih =>
    rw [putRecord]
    split
    case isTrue same => simp [same]
    case isFalse => rw [List.map_cons, List.mem_cons, ih, List.map_cons, List.mem_cons, or_left_comm]

/-- Writing a record keeps the keys distinct. -/
theorem keysDistinct_putRecord {records : List Record} (h : Record.KeysDistinct records)
    (r : Record) : Record.KeysDistinct (putRecord records r) := by
  induction records with
  | nil => simp [putRecord, Record.KeysDistinct]
  | cons old rest ih =>
    have ⟨fresh, others⟩ := List.nodup_cons.mp h
    rw [putRecord]
    split
    case isTrue same => exact List.nodup_cons.mpr ⟨same ▸ fresh, others⟩
    case isFalse different =>
      refine List.nodup_cons.mpr ⟨?_, ih others⟩
      rw [mem_keys_putRecord]
      exact fun member => member.elim different fresh

/-- Writing records one after the other keeps the keys distinct. -/
theorem keysDistinct_foldl_putRecord (records : List Record) {old : List Record}
    (h : Record.KeysDistinct old) : Record.KeysDistinct (records.foldl putRecord old) := by
  induction records generalizing old with
  | nil => exact h
  | cons r rest ih => exact ih (keysDistinct_putRecord h r)

/-- Removing records keeps the keys distinct. -/
theorem keysDistinct_filter {records : List Record} (h : Record.KeysDistinct records)
    (keep : Record → Bool) : Record.KeysDistinct (records.filter keep) :=
  h.sublist (List.filter_sublist.map _)

/-- Writes records one after the other; of those with one key the last one stays. -/
def put (s : Store) (records : List Record) : Store :=
  { s with
    records := records.foldl putRecord s.records
    distinct := keysDistinct_foldl_putRecord records s.distinct }

/-- Removes the records of some keys; keys without a record are passed over. -/
def delete (s : Store) (keys : List Key) : Store :=
  { s with
    records := s.records.filter fun r => !keys.contains r.key
    distinct := keysDistinct_filter s.distinct _ }

/-- Removes all records; what was asked for stays counted. -/
def clear (s : Store) : Store := { s with records := [], distinct := List.nodup_nil }

/-- Forgets what was asked for; the records stay. -/
def resetCounters (s : Store) : Store := { s with lookups := 0, queries := 0, pageSizes := [] }

/-- The store of some records before anything is asked of it. -/
def ofRecords (records : List Record) : Store := put {} records

/-- Whether a record is of the kind of a query and below its ancestor. -/
def inScope (q : NativeQuery) (r : Record) : Bool :=
  r.key.kind = .string q.kind && q.ancestor.all r.key.descendsFrom

/-- The records that pass a filter. -/
def passing (filter : Filter) : List Record → Except Error (List Record)
  | [] => .ok []
  | r :: rest => do
    let passes ← filter.passes r
    let others ← passing filter rest
    return if passes then r :: others else others

/-- All records that a query yields, in order. -/
def select (records : List Record) (q : NativeQuery) : Except Error (List Record) := do
  let found ← passing q.filter (records.filter (inScope q))
  let sorted := Record.sortBy q.sort found
  return match q.effectiveLimit with
    | some n => sorted.take n
    | none => sorted

/-- The elements from an offset up to an end; an end before the beginning is counted from the other
end of the list. -/
def slice {α : Type} (offset : Nat) (size : Int) (xs : List α) : List α :=
  let stop := offset + size
  -- A page size below zero is not refused here, and may put the end before the beginning.
  let stop := if stop < 0 then stop + xs.length else stop
  (xs.take stop.toNat).drop offset

/-- The page of a result. -/
def pageOf (selected : List Record) (offset : Nat) (size : Int) : Page :=
  let records := slice offset size selected
  let stop := offset + records.length
  { records, cursor := some (Cursor.ofOffset stop), more := stop < selected.length }

/-- The records of some keys in the order of the keys, in one lookup. -/
def lookup (keys : List Key) (s : Store) : Outcome Store (List (Option Record)) :=
  (.ok (keys.map s.get?), { s with lookups := s.lookups + 1 })

/-- One page of a query. A query that fails has been counted. -/
def runQuery (q : NativeQuery) (size : Int) (cursor : Option String) (s : Store) :
    Outcome Store Page :=
  -- A failing cursor or filter leaves the records alone, and the request has still been made.
  let page := do
    let offset ← Cursor.toOffset cursor s.levels
    return pageOf (← select s.records q) offset size
  (page, { s with queries := s.queries + 1, pageSizes := s.pageSizes ++ [size] })

/-- The store as a backend. -/
def backend : Backend Store where
  lookup := lookup
  runQuery := runQuery
  put records s := (.ok (), s.put records)
  delete keys s := (.ok (), s.delete keys)

end Store

end RecordStore
