import RecordStore.Query
import RecordStore.Record

/-!
# Native filters

The filters that a backend runs itself: comparisons of columns with backend values, combined by
"and" and "or". An operator may be one that nothing here knows, and so may a whole filter; both show
only when an evaluation reaches them.
-/

namespace RecordStore

/-- An operator of a filter, or what stands in its place. -/
inductive Symbol (α : Type)
  | known (operator : α)
  | unknown (given : Datum)

/-- A condition that a backend evaluates on the columns of records. -/
inductive Filter
  /-- The filter that every record passes. -/
  | everything
  /-- The filter that no record passes. -/
  | nothing
  | property (column : Datum) (operator : Symbol Comparison) (operand : Value)
  | composite (operator : Symbol Logical) (parts : List Filter)
  /-- A filter of a type that nothing here knows. -/
  | unsupported
  deriving Inhabited

/-- Whether an operator can be shown. -/
def Symbol.isWritable {α : Type} : Symbol α → Bool
  | .known _ => true
  | .unknown given => given.isWritable

/-- Whether a comparison holds between two values. -/
def Symbol.compare (operator : Symbol Comparison) (actual expected : Value) : Except Error Bool :=
  match operator with
  | .known c => .ok (c.holds (actual.compare expected))
  | .unknown given => do
    given.checkHashable
    .error (.showing given.isWritable (.unknownOperator given Comparison.symbols .null))

namespace Filter

/-- Whether a filter is the one that no record passes, by its form. -/
def isNothing : Filter → Bool
  | .nothing => true
  | _ => false

/-- Whether a filter is the one that every record passes, by its form. -/
def isEverything : Filter → Bool
  | .everything => true
  | _ => false

mutual

/-- Whether a record passes a filter. Parts are evaluated in order, no further than the answer
needs. -/
def passes (r : Record) : Filter → Except Error Bool
  | .everything => .ok true
  | .nothing => .ok false
  | .property column operator operand => do
    match ← r.find? column with
    | some actual => operator.compare actual operand
    | none => return false
  | .composite (.known .and) parts => allPass r parts
  | .composite (.known .or) parts => anyPasses r parts
  | .composite (.unknown given) _ =>
    .error (.showing given.isWritable (.unknownOperator given Logical.names .null))
  | .unsupported => .error (.noAttribute Datum.unsupported.typeName "operator")

/-- Whether a record passes all filters; the first one that it does not pass settles it. -/
def allPass (r : Record) : List Filter → Except Error Bool
  | [] => .ok true
  | part :: rest => do if ← passes r part then allPass r rest else return false

/-- Whether a record passes some filter; the first one that it passes settles it. -/
def anyPasses (r : Record) : List Filter → Except Error Bool
  | [] => .ok false
  | part :: rest => do if ← passes r part then return true else anyPasses r rest

end

/-- How messages show an operator. -/
def showComparison : Symbol Comparison → String
  | .known c => "<ComparisonOperator." ++ c.name ++ ": '" ++ c.symbol ++ "'>"
  | .unknown given => given.show

/-- How messages show an operator of a composite. -/
def showLogical : Symbol Logical → String
  | .known .and => "<LogicalOperator.AND: 'and'>"
  | .known .or => "<LogicalOperator.OR: 'or'>"
  | .unknown given => given.show

mutual

/-- How messages show a filter. -/
def «show» : Filter → String
  | .everything => "None"
  | .nothing => "MatchNothing()"
  | .property column operator operand =>
    bracketed "PropertyFilter(" ")" ["column=" ++ column.show,
      "operator=" ++ showComparison operator, "value=" ++ operand.show]
  | .composite operator parts =>
    bracketed "CompositeFilter(" ")" ["operator=" ++ showLogical operator,
      "filters=" ++ showTuple (showParts parts)]
  | .unsupported => Datum.unsupported.show

/-- How messages show the parts of a composite. -/
def showParts : List Filter → List String
  | [] => []
  | part :: rest => part.show :: showParts rest

end

mutual

/-- Whether a filter can be shown. -/
def isWritable : Filter → Bool
  | .property column operator operand =>
    column.isWritable && operator.isWritable && operand.isWritable
  | .composite operator parts => operator.isWritable && areWritable parts
  | .everything | .nothing | .unsupported => true

/-- Whether each part of a composite can be shown. -/
def areWritable : List Filter → Bool
  | [] => true
  | part :: rest => part.isWritable && areWritable rest

end

end Filter

/-- A filtered and sorted query that a backend runs itself; a limit that is not positive means
none. -/
structure NativeQuery where
  kind : String
  filter : Filter := .everything
  sort : List OrderBy := []
  limit : Option Int := none
  ancestor : Option Key := none

namespace NativeQuery

/-- Whether a query finds nothing, by the form of its filter. -/
def matchesNothing (q : NativeQuery) : Bool := q.filter.isNothing

/-- The limit, if it limits anything. -/
def effectiveLimit (q : NativeQuery) : Option Nat :=
  q.limit.bind fun n => if 0 < n then some n.toNat else none

end NativeQuery

end RecordStore
