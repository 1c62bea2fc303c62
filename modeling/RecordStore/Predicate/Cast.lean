import RecordStore.Datum.ToValue
import RecordStore.Text.Base64
import RecordStore.Text.LowerCase

/-!
# Casting values

Written predicates hold what JSON can hold. A condition may name the type that its value is cast to;
null stays null whatever the type.
-/

namespace RecordStore

/-- The types that a value can be cast to. -/
inductive CastType
  | blob
  | boolean
  | double
  | integer
  | string
  | timestamp
  deriving DecidableEq

namespace CastType

/-- The name by which conditions ask for a type. -/
def name : CastType → String
  | .blob => "blob"
  | .boolean => "boolean"
  | .double => "double"
  | .integer => "integer"
  | .string => "string"
  | .timestamp => "timestamp"

/-- All types, in the order of their names. -/
def all : List CastType := [.blob, .boolean, .double, .integer, .string, .timestamp]

/-- The type of a name. -/
def ofName? (text : String) : Option CastType := all.find? fun t => t.name = text

end CastType

namespace Datum

/-- The whole part of a double; what is not a number has none, and an infinity is out of range. -/
def wholeOfDouble (x : Double) : Except Error (Option Int) :=
  match x with
  | .infinite _ => .error (.outOfRange .infinityToInteger)
  | _ => .ok x.truncate?

/-- A number without its fraction, or the whole number that a text writes. -/
def castInteger (d : Datum) : Except Error (Option Datum) :=
  match d with
  | .boolean b => .ok (some (.integer (if b then 1 else 0)))
  | .integer n | .long n => .ok (some (.integer n))
  | .double x => do return (← wholeOfDouble x).map .integer
  | .text s => .ok ((Number.readInteger? s).map .integer)
  | .bytes b | .buffer b | .view b | .binary b =>
    .ok ((Number.readInteger? (asciiText b)).map .integer)
  | .decimal s =>
    if s.endsWith "Infinity" then .error (.outOfRange .decimalInfinityToInteger)
    else .ok ((Number.readWhole? s).map .integer)
  | .uuid s => .ok (some (.integer (Text.Hex.number s.toList)))
  | _ => .ok none

/-- The double of a number or text; a whole number that is too large is out of range. -/
def castDouble (d : Datum) : Except Error (Option Datum) :=
  match d.toDouble with
  | .ok x => .ok (some (.double x))
  | .error (.outOfRange f) => .error (.outOfRange f)
  | .error _ => .ok none

/-- A boolean, or one of the words for it in any case and between blanks. -/
def castBoolean (d : Datum) : Option Datum := do
  match d with
  | .boolean b => return .boolean b
  | _ =>
    let word := String.ofList (Text.lower (Text.trimBlanks (← d.display?).toList))
    if ["true", "1", "yes"].contains word then return .boolean true
    else if ["false", "0", "no"].contains word then return .boolean false
    else none

/-- A point of time, or the one that a text writes; the letter for universal time may stand for its
offset. -/
def castTimestamp (d : Datum) : Option Datum := do
  match d with
  | .clock t => return .clock t
  | .moment m => return .moment m
  | _ =>
    let text := (← d.display?).toList.flatMap fun c => if c = 'Z' then "+00:00".toList else [c]
    match ← Calendar.read? text with
    | .unplaced t => return .clock t
    | .placed m => return .moment m

/-- Bytes, or those that a text writes in base 64. -/
def castBlob (d : Datum) : Option Datum := do
  match d with
  | .bytes b => return .bytes b
  | .binary b => return .binary b
  | _ => return .bytes (← Text.Base64.decode? true (← d.display?).toList)

/-- The datum of a type; none if the datum cannot be cast to it. -/
def castTo (d : Datum) (t : CastType) : Except Error (Option Datum) :=
  match t with
  | .string => .ok (d.display?.map .text)
  | .integer => d.castInteger
  | .double => d.castDouble
  | .boolean => .ok d.castBoolean
  | .timestamp => .ok d.castTimestamp
  | .blob => .ok d.castBlob

/-- The error of a type that no value can be cast to. -/
def unknownCast (target : Datum) : Error :=
  .showing target.isWritable (.query (.unknownCast target) .null)

/-- The error of a datum that cannot be cast to a type. -/
def castFailed (d : Datum) (name : String) : Error :=
  .showing d.isWritable (.query (.castFailed d name) .null)

/-- The datum cast to the type of the given name. -/
def cast (d : Datum) (target : Datum) : Except Error Datum :=
  match d with
  | .null => .ok .null
  | _ => do
    -- The name of the type is looked up in a table.
    target.checkHashable
    match target with
    | .text name =>
      match CastType.ofName? name with
      | none => .error target.unknownCast
      | some t =>
        match ← d.castTo t with
        | some result => return result
        | none => .error (d.castFailed name)
    | _ => .error target.unknownCast

end Datum

end RecordStore
