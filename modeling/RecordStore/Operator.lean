/-!
# Operators

The comparisons between a column and a value, the two ways to combine conditions, and the two
directions of an ordering.
-/

namespace RecordStore

/-- How the value of a column is compared with another value. -/
inductive Comparison
  | equal
  | greater
  | greaterOrEqual
  | less
  | lessOrEqual
  deriving DecidableEq

namespace Comparison

/-- The symbol that written predicates have for a comparison. -/
def symbol : Comparison → String
  | .equal => "="
  | .greater => ">"
  | .greaterOrEqual => ">="
  | .less => "<"
  | .lessOrEqual => "<="

/-- How messages name a comparison. -/
def name : Comparison → String
  | .equal => "EQUAL"
  | .greater => "GREATER"
  | .greaterOrEqual => "GREATER_OR_EQUAL"
  | .less => "LESS"
  | .lessOrEqual => "LESS_OR_EQUAL"

/-- All comparisons, in the order of their names. -/
def all : List Comparison := [.equal, .greater, .greaterOrEqual, .less, .lessOrEqual]

/-- The comparison of a symbol. -/
def ofSymbol? (text : String) : Option Comparison := all.find? fun c => c.symbol = text

/-- The symbols in the order in which suggestions are looked for. -/
def symbols : List String := all.map symbol

/-- Whether the comparison holds of two values in the given order. -/
def holds : Comparison → Ordering → Bool
  | .equal, o => o = .eq
  | .greater, o => o = .gt
  | .greaterOrEqual, o => o ≠ .lt
  | .less, o => o = .lt
  | .lessOrEqual, o => o ≠ .gt

end Comparison

/-- How the parts of a condition are combined. -/
inductive Logical
  | and
  | or
  deriving DecidableEq

namespace Logical

/-- The name that written predicates have for an operator. -/
def name : Logical → String
  | .and => "and"
  | .or => "or"

/-- The names of both operators. -/
def names : List String := [name .and, name .or]

/-- The operator of a name in small letters. -/
def ofName? (text : String) : Option Logical :=
  if text = "and" then some .and else if text = "or" then some .or else none

end Logical

/-- The direction of an ordering. -/
inductive Direction
  | ascending
  | descending
  deriving DecidableEq

namespace Direction

/-- The name of a direction. -/
def name : Direction → String
  | .ascending => "asc"
  | .descending => "desc"

/-- The direction of a name in small letters. -/
def ofName? (text : String) : Option Direction :=
  if text = "asc" then some .ascending else if text = "desc" then some .descending else none

end Direction

end RecordStore
