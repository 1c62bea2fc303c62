import RecordStore.Error

/-!
# Predicate trees

A predicate is a tree of conditions on columns. A node combines its own conditions and its children
with "and" or with "or"; a foreign node comes from elsewhere and means nothing here. No tree that is
deeper than `maxPredicateDepth` levels is evaluated or translated.
-/

namespace RecordStore

/-- A comparison of a column with a value. The column is named by a text; a condition on any other
datum is on a column that no record has. -/
structure Condition where
  column : Datum
  operator : Comparison
  operand : Datum

namespace Condition

/-- The condition of a column, the symbol of a comparison and a value. An empty column is reported
before an unknown symbol. -/
def make (column symbol operand : Datum) : Except Error Condition :=
  if !column.isTruthy then .error (.query .columnMissing .null)
  else
    match symbol with
    | .text s =>
      match Comparison.ofSymbol? s with
      | some operator => .ok ⟨column, operator, operand⟩
      | none => .error (.unknownOperator symbol Comparison.symbols .null)
    | _ => .error (.showing symbol.isWritable (.unknownOperator symbol Comparison.symbols .null))

/-- The written form of a condition. -/
def toDatum (c : Condition) : Datum :=
  .ofFields [("column", c.column), ("op", .text c.operator.symbol), ("value", c.operand)]

end Condition

/-- How a node combines its parts. -/
inductive Connective
  | all
  | any
  /-- A node of a type that nothing here knows, with the operator that it shows. -/
  | foreign (typeName : String) (shown : Logical)
  deriving DecidableEq, Inhabited

namespace Connective

/-- The node of an operator. -/
def ofLogical : Logical → Connective
  | .and => .all
  | .or => .any

/-- The operator that a node shows. -/
def logical : Connective → Logical
  | .all => .and
  | .any => .or
  | .foreign _ shown => shown

/-- The error of a node that cannot be evaluated. -/
def unknown (typeName : String) : Error := .unknownOperator (.text typeName) Logical.names .null

end Connective

/-- A tree of conditions. -/
inductive Predicate
  | node (connective : Connective) (conditions : List Condition) (children : List Predicate)
  deriving Inhabited

namespace Predicate

/-- How a node combines its parts. -/
def connective : Predicate → Connective
  | .node c _ _ => c

/-- The conditions of a node itself. -/
def conditions : Predicate → List Condition
  | .node _ cs _ => cs

/-- The trees right below a node. -/
def children : Predicate → List Predicate
  | .node _ _ ps => ps

/-- The predicate that every record matches. -/
def everything : Predicate := .node .all [] []

/-- Whether a node has neither conditions nor children. -/
def isEmpty (p : Predicate) : Bool := p.conditions.isEmpty && p.children.isEmpty

mutual

/-- The number of nodes. -/
def size : Predicate → Nat
  | .node _ _ children => sizes children + 1

/-- The number of nodes of some trees together. -/
def sizes : List Predicate → Nat
  | [] => 0
  | child :: rest => size child + sizes rest

end

/-- Searches the nodes on a stack, each with its level, for the deepest level; the search ends at
the first level that is too deep. `fuel` bounds the nodes still to be visited. -/
def deepestLevel (fuel deepest : Nat) (stack : List (Predicate × Nat)) : Nat :=
  match fuel, stack with
  | _, [] | 0, _ => deepest
  | fuel + 1, (tree, level) :: rest =>
    if maxPredicateDepth < level then level
    else
      deepestLevel fuel (max deepest level)
        -- The last child is visited first.
        ((tree.children.map fun child => (child, level + 1)).reverse ++ rest)

/-- The number of levels, or one more than allowed if there are too many. -/
def depth (p : Predicate) : Nat := deepestLevel p.size 0 [(p, 1)]

/-- Refuses a tree that has too many levels. -/
def checkDepth (p : Predicate) : Except Error Unit :=
  if maxPredicateDepth < p.depth then .error (.query .treeTooDeep .null) else .ok ()

mutual

/-- The written form of a tree. -/
def toDatum : Predicate → Datum
  | .node connective conditions children =>
    .ofFields [("op", .text connective.logical.name),
      ("params", .list (conditions.map Condition.toDatum)), ("children", .list (toData children))]

/-- The written forms of some trees. -/
def toData : List Predicate → List Datum
  | [] => []
  | child :: rest => toDatum child :: toData rest

end

end Predicate

end RecordStore
