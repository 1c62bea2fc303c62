import RecordStore.Filter.Basic
import RecordStore.Predicate.Matcher

/-!
# From predicates to native filters

Translates predicate trees into filters and folds constants on the way: an empty "and" is the filter
that everything passes, an empty "or" the one that nothing passes, and neither is left inside
another filter. A root without parts is no filter, whatever its operator.
-/

namespace RecordStore

namespace Filter

/-- The conjunction of filters: nothing if a part is nothing, everything if no other part is left,
and a lone part itself. -/
def conjunction (parts : List Filter) : Filter :=
  -- What every record passes can be left out of a conjunction.
  let kept := parts.filter fun part => !part.isEverything
  if kept.any isNothing then .nothing
  else
    match kept with
    | [] => .everything
    | [part] => part
    | parts => .composite (.known .and) parts

/-- The disjunction of filters: everything if a part is everything, nothing if no other part is
left, and a lone part itself. -/
def disjunction (parts : List Filter) : Filter :=
  -- Here a part that always holds settles the whole, and goes first.
  if parts.any isEverything then .everything
  else
    match parts.filter fun part => !part.isNothing with
    | [] => .nothing
    | [part] => part
    | parts => .composite (.known .or) parts

/-- The filter of a condition, its value converted to the type of the column. -/
def ofCondition (c : Conversion) (condition : Condition) : Except Error Filter := do
  return .property condition.column (.known condition.operator) (← c.convert condition)

mutual

/-- The filter of a node: its conditions are converted first, then its children, and only then is
the node itself looked at. -/
def ofNode (c : Conversion) : Predicate → Except Error Filter
  | .node connective conditions children => do
    -- Values that do not fit their columns are refused before foreign nodes are.
    let parts := (← conditions.mapM (ofCondition c)) ++ (← ofNodes c children)
    match connective with
    | .all => return conjunction parts
    | .any => return disjunction parts
    | .foreign typeName _ => .error (Connective.unknown typeName)

/-- The filters of some trees, each as a part of a larger one. -/
def ofNodes (c : Conversion) : List Predicate → Except Error (List Filter)
  | [] => .ok []
  | child :: rest => do return (← ofNode c child) :: (← ofNodes c rest)

end

/-- The filter of a predicate. -/
def ofPredicate (c : Conversion) (p : Predicate) : Except Error Filter := do
  if p.isEmpty then return .everything
  p.checkDepth
  ofNode c p

end Filter

/-- The native query of a predicate, an ordering and a limit over the records of a layout. -/
def NativeQuery.ofPredicate (registry : Registry) (layout : Layout) (p : Predicate)
    (orderBy : List OrderBy) (limit : Option Int) : Except Error NativeQuery := do
  let filter ← Filter.ofPredicate ⟨registry, some layout⟩ p
  return ⟨layout.kind, filter, orderBy, limit, layout.parent⟩

end RecordStore
