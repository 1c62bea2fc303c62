import RecordStore.Predicate.Basic
import RecordStore.Datum.Elements
import RecordStore.Datum.ToValue
import RecordStore.Text.LowerCase

/-!
# Record queries

A `RecordQuery` says which records to read, by identifiers and a predicate, and how to return them:
in what order, how many, and with which fields.
-/

namespace RecordStore

/-- An ordering column with its direction. -/
structure OrderBy where
  column : String
  direction : Direction := .ascending
  deriving DecidableEq

namespace OrderBy

/-- Whether the greatest values come first. -/
def isDescending (o : OrderBy) : Bool := o.direction = .descending

/-- A column name, descending if a hyphen stands before it. -/
def parse (text : String) : OrderBy :=
  match text.toList with
  | '-' :: rest => ⟨String.ofList rest, .descending⟩
  | _ => ⟨text, .ascending⟩

/-- A column with a direction by its name, in any case. -/
def make (column : String) (direction : Datum) : Except Error OrderBy := do
  let name := String.ofList (Text.lower (← direction.written).toList)
  match Direction.ofName? name with
  | some d => .ok ⟨column, d⟩
  | none => .error (.badValue (.direction name))

/-- The column name, behind a hyphen if it is descending. -/
def toText (o : OrderBy) : String := if o.isDescending then "-" ++ o.column else o.column

end OrderBy

/-- The paths of the fields to keep; the empty mask keeps everything. -/
structure FieldMask where
  paths : List String := []

namespace FieldMask

/-- The mask of some paths, each once. -/
def ofPaths (paths : List String) : FieldMask :=
  ⟨paths.foldl (fun done path => if done.contains path then done else done ++ [path]) []⟩

/-- Whether a mask lists no path, and so keeps everything. -/
def isEmpty (m : FieldMask) : Bool := m.paths.isEmpty

/-- The paths in their order. -/
def sorted (m : FieldMask) : List String := Error.sortTexts m.paths

end FieldMask

/-- Which records to read, and how to return them. No identifiers means no restriction, and a limit
that is not positive means none. -/
structure RecordQuery where
  ids : List Datum := []
  predicate : Predicate := .everything
  orderBy : List OrderBy := []
  limit : Option Int := none
  mask : FieldMask := {}

namespace RecordQuery

/-- The limit, if it limits anything. -/
def effectiveLimit (q : RecordQuery) : Option Nat :=
  q.limit.bind fun n => if 0 < n then some n.toNat else none

/-- Whether a query names identifiers. -/
def hasIds (q : RecordQuery) : Bool := !q.ids.isEmpty

/-- The written form of a query, without the parts that say nothing. -/
def toDatum (q : RecordQuery) : Datum :=
  let ids := if q.hasIds then [("ids", .list (q.ids.map fun id => .text id.display))] else []
  let predicate := if q.predicate.isEmpty then [] else [("predicate", q.predicate.toDatum)]
  let orderBy :=
    if q.orderBy = [] then [] else [("order_by", .list (q.orderBy.map fun o => .text o.toText))]
  let limit := match q.effectiveLimit with
    | some n => [("limit", .integer n)]
    | none => []
  let mask := if q.mask.isEmpty then [] else [("mask", .list (q.mask.sorted.map .text))]
  .ofFields (ids ++ predicate ++ orderBy ++ limit ++ mask)

end RecordQuery

end RecordStore
