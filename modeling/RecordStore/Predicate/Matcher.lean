import RecordStore.Layout
import RecordStore.Predicate.Basic

/-!
# Matching records

Evaluates predicates on stored records. An "and" holds when all its parts do, an "or" when some part
does, and a condition on a column that the record lacks never holds. The value of a condition is
converted once, when it is first needed, so a `Matcher` remembers converted values and is handed on
from record to record.
-/

namespace RecordStore

/-- A condition and, once it has been needed, its converted value. -/
structure PreparedCondition where
  condition : Condition
  converted : Option Value := none

/-- A predicate tree whose conditions remember their converted values. -/
inductive MatchTree
  | node (connective : Connective) (conditions : List PreparedCondition)
    (children : List MatchTree)

/-- The answer of an evaluation, and the tree with what it has remembered. -/
abbrev Answer (α : Type) : Type := Except Error Bool × α

/-- What a condition's value is converted by: the table of converters, and the layout that declares
the types of columns, if there is one. -/
structure Conversion where
  registry : Registry
  layout : Option Layout

namespace Conversion

/-- The type that a column is declared with, if there is a layout that declares it. -/
def columnType? (c : Conversion) (column : String) : Option ColumnType :=
  c.layout.bind (·.columnType? column)

/-- The value that a column is compared with. -/
def convert (c : Conversion) (condition : Condition) : Except Error Value := do
  let column ← condition.column.name?
  c.registry.toValue condition.operand (column.bind c.columnType?)

end Conversion

namespace PreparedCondition

/-- Whether a record meets a condition. The value is converted only if the record has the column. -/
def test (c : Conversion) (r : Record) (p : PreparedCondition) : Answer PreparedCondition :=
  match r.find? p.condition.column with
  | .error e => (.error e, p)
  | .ok none => (.ok false, p)
  | .ok (some actual) =>
    -- What has been converted once is not converted again, whichever record comes next.
    match p.converted with
    | some v => (.ok (p.condition.operator.holds (actual.compare v)), p)
    | none =>
      match c.convert p.condition with
      | .error e => (.error e, p)
      | .ok v =>
        (.ok (p.condition.operator.holds (actual.compare v)), { p with converted := some v })

end PreparedCondition

/-- Tests parts in order until one answers `stop` or fails; the parts after it stay as they are. -/
def testUntil {α : Type} (stop : Bool) (test : α → Answer α) : List α → Answer (List α)
  | [] => (.ok (!stop), [])
  | part :: rest =>
    match test part with
    | (.error e, part) => (.error e, part :: rest)
    | (.ok answer, part) =>
      if answer = stop then (.ok stop, part :: rest)
      else
        let (answer, rest) := testUntil stop test rest
        (answer, part :: rest)

namespace MatchTree

mutual

/-- The tree of a predicate before anything has been converted. -/
def ofPredicate : Predicate → MatchTree
  | .node connective conditions children =>
    .node connective (conditions.map fun condition => { condition }) (ofPredicates children)

/-- The trees of some predicates before anything has been converted. -/
def ofPredicates : List Predicate → List MatchTree
  | [] => []
  | child :: rest => ofPredicate child :: ofPredicates rest

end

mutual

/-- Whether a record meets a tree: conditions first, then children, no further than the answer
needs. -/
def test (c : Conversion) (r : Record) : MatchTree → Answer MatchTree
  | .node (.foreign typeName shown) conditions children =>
    (.error (Connective.unknown typeName), .node (.foreign typeName shown) conditions children)
  | .node .all conditions children =>
    -- An "and" is settled by the first part that does not hold.
    match testUntil false (PreparedCondition.test c r) conditions with
    | (.ok true, conditions) =>
      let (answer, children) := testChildren c r false children
      (answer, .node .all conditions children)
    | (answer, conditions) => (answer, .node .all conditions children)
  | .node .any conditions children =>
    -- An "or" is settled by the first part that holds.
    match testUntil true (PreparedCondition.test c r) conditions with
    | (.ok false, conditions) =>
      let (answer, children) := testChildren c r true children
      (answer, .node .any conditions children)
    | (answer, conditions) => (answer, .node .any conditions children)

/-- Tests children in order until one answers `stop` or fails. -/
def testChildren (c : Conversion) (r : Record) (stop : Bool) :
    List MatchTree → Answer (List MatchTree)
  | [] => (.ok (!stop), [])
  | child :: rest =>
    match test c r child with
    | (.error e, child) => (.error e, child :: rest)
    | (.ok answer, child) =>
      if answer = stop then (.ok stop, child :: rest)
      else
        let (answer, rest) := testChildren c r stop rest
        (answer, child :: rest)

end

end MatchTree

/-- A predicate that is ready to be evaluated. -/
structure Matcher where
  conversion : Conversion
  tree : MatchTree

namespace Matcher

/-- Prepares a predicate; one with too many levels is refused. -/
def prepare (predicate : Predicate) (conversion : Conversion) : Except Error Matcher := do
  predicate.checkDepth
  return ⟨conversion, .ofPredicate predicate⟩

/-- Whether a record meets the predicate; a missing record meets none. -/
def test (m : Matcher) (r : Option Record) : Answer Matcher :=
  match r with
  | none => (.ok false, m)
  | some r =>
    let (answer, tree) := m.tree.test m.conversion r
    (answer, { m with tree })

/-- The answers to several records, one after the other. -/
def testAll (m : Matcher) : List (Option Record) → List (Except Error Bool)
  | [] => []
  | r :: rest =>
    let (answer, m) := m.test r
    answer :: testAll m rest

end Matcher

/-- Whether a record meets a predicate that is prepared for it alone. -/
def Predicate.matches? (p : Predicate) (conversion : Conversion) (r : Option Record) :
    Except Error Bool := do
  return ← ((← Matcher.prepare p conversion).test r).1

end RecordStore
