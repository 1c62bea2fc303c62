import RecordStore.Predicate.Basic

/-!
# Building predicates step by step

A `PredicateBuilder` collects conditions and finished predicates in the group that was opened last;
the outermost group is an "and". Closing a group adds it to the one around it. A step that fails
leaves the builder as it was.
-/

namespace RecordStore

/-- A group under construction. -/
structure PredicateGroup where
  operator : Logical
  conditions : List Condition := []
  children : List Predicate := []

namespace PredicateGroup

/-- The node of a finished group. -/
def toPredicate (g : PredicateGroup) : Predicate :=
  .node (Connective.ofLogical g.operator) g.conditions g.children

/-- Adds a condition behind those of the group. -/
def addCondition (g : PredicateGroup) (c : Condition) : PredicateGroup :=
  { g with conditions := g.conditions ++ [c] }

/-- Adds a finished predicate behind those of the group. -/
def addChild (g : PredicateGroup) (p : Predicate) : PredicateGroup :=
  { g with children := g.children ++ [p] }

end PredicateGroup

/-- The outermost group and the open groups inside it, the innermost one first. -/
structure PredicateBuilder where
  root : PredicateGroup := { operator := .and }
  opened : List PredicateGroup := []

namespace PredicateBuilder

/-- The builder before anything has been added. -/
def empty : PredicateBuilder := {}

/-- Changes the innermost open group, or the outermost one if none is open. -/
def modifyCurrent (b : PredicateBuilder) (f : PredicateGroup → PredicateGroup) : PredicateBuilder :=
  match b.opened with
  | [] => { b with root := f b.root }
  | group :: rest => { b with opened := f group :: rest }

/-- Adds the condition of a column, the symbol of a comparison and a value. -/
def addCondition (b : PredicateBuilder) (column symbol operand : Datum) :
    Except Error PredicateBuilder := do
  let condition ← Condition.make column symbol operand
  return b.modifyCurrent (·.addCondition condition)

/-- Adds a finished predicate. -/
def add (b : PredicateBuilder) (p : Predicate) : PredicateBuilder :=
  b.modifyCurrent (·.addChild p)

/-- Opens a group inside the innermost open one. -/
def openGroup (b : PredicateBuilder) (operator : Logical) : PredicateBuilder :=
  { b with opened := { operator } :: b.opened }

/-- Closes the innermost open group. -/
def closeGroup (b : PredicateBuilder) : Except Error PredicateBuilder :=
  match b.opened with
  | [] => .error (.badValue .noOpenGroup)
  | group :: rest =>
    .ok ({ b with opened := rest }.modifyCurrent (·.addChild group.toPredicate))

/-- The predicate built so far; every group must be closed. -/
def build (b : PredicateBuilder) : Except Error Predicate :=
  match b.opened with
  | [] => .ok b.root.toPredicate
  | groups => .error (.badValue (.openGroups groups.length))

end PredicateBuilder

end RecordStore
