/-!
# Sorting with a comparison that can fail

Binary insertion behind the run that a list begins with. The comparison need not be one of an order,
and it may fail; so which elements are compared, and in which turn, is part of the result: a new
element is always asked whether it is less than one that is in place.
-/

namespace RecordStore.Sorting

variable {α ε : Type}

/-- How many elements behind `last` go on like it: each is less than the one before it, or none is.
-/
def runLength (less : α → α → Except ε Bool) (descending : Bool) (last : α) :
    List α → Except ε Nat
  | [] => .ok 0
  | a :: rest => do
    if (← less a last) = descending then return (← runLength less descending a rest) + 1
    else return 0

/-- The run that a list begins with, in ascending order, and the rest. -/
def splitRun (less : α → α → Except ε Bool) (xs : List α) : Except ε (List α × List α) :=
  match xs with
  | a :: b :: rest => do
    let descending ← less b a
    -- A descending run is strictly so; equal elements would change places when it is reversed.
    let count ← runLength less descending b rest
    let run := xs.take (count + 2)
    return (if descending then run.reverse else run, xs.drop (count + 2))
  | _ => .ok (xs, [])

/-- The number of elements of an ascending list that stay before a new one, between `low` and
`high`; the new one goes behind those that it is not less than. -/
def insertionPoint (less : α → α → Except ε Bool) (a : α) (xs : Array α) :
    Nat → Nat → Nat → Except ε Nat
  | 0, low, _ => .ok low
  | fuel + 1, low, high =>
    let middle := low + (high - low) / 2
    if high ≤ low then .ok low
    else
      match xs[middle]? with
      | none => .ok low
      | some b => do
        if ← less a b then insertionPoint less a xs fuel low middle
        else insertionPoint less a xs fuel (middle + 1) high

/-- An ascending list with one more element. -/
def insert (less : α → α → Except ε Bool) (xs : List α) (a : α) : Except ε (List α) := do
  let point ← insertionPoint less a xs.toArray (xs.length + 1) 0 xs.length
  return xs.take point ++ a :: xs.drop point

/-- The elements in order. -/
def sort (less : α → α → Except ε Bool) (xs : List α) : Except ε (List α) := do
  let (run, rest) ← splitRun less xs
  rest.foldlM (insert less) run

end RecordStore.Sorting
