import RecordStore.Assoc
import RecordStore.Number.Shortest

/-!
# JSON values

The data of JSON texts. Whole numbers are of any size and apart from doubles; the members of an
object keep their order.
-/

namespace RecordStore

/-- A JSON value. -/
inductive Json
  | null
  | boolean (b : Bool)
  | integer (n : Int)
  | double (x : Double)
  | string (s : String)
  | array (items : List Json)
  | object (members : List (String × Json))
  deriving Inhabited

namespace Json

/-- The value of a member of an object. -/
def get? (name : String) : Json → Option Json
  | .object members => (members.find? fun member => member.1 = name).map Prod.snd
  | _ => none

/-- The items of an array; nothing else has any. -/
def items : Json → List Json
  | .array items => items
  | _ => []

/-- The members of an object; nothing else has any. -/
def members : Json → List (String × Json)
  | .object members => members
  | _ => []

/-- The text that a value is. -/
def text? : Json → Option String
  | .string s => some s
  | _ => none

/-- The whole number that a value is. -/
def integer? : Json → Option Int
  | .integer n => some n
  | _ => none

/-- Whether a value is the word for true. -/
def isTrue : Json → Bool
  | .boolean b => b
  | _ => false

/-- Whether a value is the word for null. -/
def isNull : Json → Bool
  | .null => true
  | _ => false

mutual

/-- A value whose objects keep of each repeated name the first place and the last value. -/
def merged : Json → Json
  | .array items => .array (mergedItems items)
  | .object members => .object (Assoc.ofList (mergedMembers members))
  | other => other

/-- The items of an array, each with its repeated names merged. -/
def mergedItems : List Json → List Json
  | [] => []
  | item :: items => item.merged :: mergedItems items

/-- The members of an object where they stand, each with its own repeated names merged. -/
def mergedMembers : List (String × Json) → List (String × Json)
  | [] => []
  | (name, item) :: members => (name, item.merged) :: mergedMembers members

end

end Json

end RecordStore
