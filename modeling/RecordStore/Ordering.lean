import RecordStore.Query
import RecordStore.Record

/-!
# Ordering records

Compares records column by column: the first ordering column on which they differ decides, in its
direction. A missing column reads as null, which is below everything else. Sorting keeps records
that are equal on all ordering columns in the order in which they came. Where the comparison is a total
preorder this says all; it is none only if a column has readings of the clock of one region that was set
between them.
-/

namespace RecordStore

namespace OrderBy

/-- The order of two records on one column. -/
def compare (o : OrderBy) (a b : Record) : Ordering :=
  let order := (a.get o.column).compare (b.get o.column)
  if o.isDescending then order.swap else order

end OrderBy

namespace Record

/-- The order of two records on a list of columns, the first one first. -/
def compareBy (orderBy : List OrderBy) (a b : Record) : Ordering :=
  orderBy.foldl (fun order o => order.then (o.compare a b)) .eq

/-- The records in order. If the comparison is a total preorder among them, each stable sort gives this
list. -/
def sortBy (orderBy : List OrderBy) (records : List Record) : List Record :=
  -- Without columns nothing is compared, and the records stay as they are.
  if orderBy = [] then records
  else records.mergeSort fun a b => (compareBy orderBy a b).isLE

end Record

end RecordStore
