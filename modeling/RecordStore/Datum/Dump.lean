import RecordStore.Error
import RecordStore.Json.Writer

/-!
# Data as JSON

`Datum.dump` turns model instances, and whatever data their fields hold, into JSON: byte strings
become texts, points of time and other scalars become their standard texts, and every collection
becomes an array. What is not a finite number becomes null, unless it is in a field that is declared
to hold doubles.
-/

namespace RecordStore

/-- The name of a datum's type with the place where the type lives. -/
def Datum.placedTypeName : Datum → String
  | .version _ => "__main__.Version"
  | .unsupported => "__main__.Opaque"
  | d => d.fullTypeName

/-- The error of a datum that has no JSON form. -/
def notDumpableError (d : Datum) : Error :=
  .foreign "PydanticSerializationError"
    ("Unable to serialize unknown type: <class '" ++ d.placedTypeName ++ "'>")

/-- The text of bytes in UTF-8. -/
def dumpBytes (bytes : Bytes) : Except Error String :=
  match Text.firstFault? bytes, Text.ofUtf8? bytes with
  | none, some text => .ok text
  | fault, _ => .error (.notText (fault.getD ⟨0, 0, 0⟩))

/-- The hours and minutes of an offset that is rounded to whole seconds, a half going away from
zero; an offset of no second is marked by a letter. -/
def dumpOffset (offset : Int) : String :=
  let seconds := (2 * offset.natAbs + 1000000) / 2000000
  if seconds = 0 then "Z"
  else
    (if offset < 0 then "-" else "+") ++ Date.padded 2 (seconds / 3600) ++ ":" ++
      Date.padded 2 (seconds / 60 % 60)

/-- Date, time and offset. -/
def dumpMoment (m : Moment) : String := m.reading.toText "T" ++ dumpOffset m.offset

/-- The JSON form of the payload of a backend value. -/
def dumpPayload : Value → Except Error Json
  | .null => .ok .null
  | .boolean b => .ok (.boolean b)
  | .integer n | .long n => .ok (.integer n)
  | .double x => .ok (if x.isFinite then .double x else .null)
  | .timestamp m => .ok (.string (dumpMoment m))
  | .string s => .ok (.string s)
  | .blob b | .binary b => (dumpBytes b).map .string

namespace Datum

/-- A datum whose type cannot name a member, as messages say it. -/
def notNameError (d : Datum) : Error := .badType (.notMemberName d.typeName)

mutual

/-- The member name of a dictionary key; the names of the items of a tuple are divided by commas. -/
def dumpKey (key : Datum) : Except Error String :=
  match key with
  | .text s => .ok s
  | .boolean b => .ok (if b then "true" else "false")
  | .double x => .ok (if x.isFinite then messageDoubles.write x else "None")
  | .clock t => .ok (t.toText "T")
  | .moment m => .ok (dumpMoment m)
  | .bytes b | .buffer b | .binary b => dumpBytes b
  | .null | .integer _ | .long _ | .date _ | .decimal _ | .uuid _ | .value _ => key.written
  | .tagged member => member.dumpKey
  | .tuple items => do return ",".intercalate (← dumpKeys items)
  | .list _ | .set _ | .frozenSet _ | .dict _ => .error key.notNameError
  | .view _ | .version _ | .unsupported | .model _ _ _ => .error (notDumpableError key)

/-- The member names of the items of a tuple. -/
def dumpKeys : List Datum → Except Error (List String)
  | [] => .ok []
  | item :: items => do return (← item.dumpKey) :: (← dumpKeys items)

end

mutual

/-- The JSON form of a datum. -/
def dump : Datum → Except Error Json
  | .null => .ok .null
  | .boolean b => .ok (.boolean b)
  | .integer n | .long n => .ok (.integer n)
  | .double x => .ok (if x.isFinite then .double x else .null)
  | .text s => .ok (.string s)
  | .bytes b | .buffer b | .binary b => (dumpBytes b).map .string
  | .clock t => .ok (.string (t.toText "T"))
  | .moment m => .ok (.string (dumpMoment m))
  | .date d => .ok (.string d.toText)
  | .decimal s | .uuid s => .ok (.string s)
  | .list items | .tuple items | .set items | .frozenSet items => do
    return .array (← dumpItems items)
  | .dict entries => do return .object (← dumpEntries entries)
  | .tagged member => member.dump
  | .model shape fields _ => do return .object (← dumpFields shape.doubles fields)
  | .value v => do
    return .object [("kind", .string v.kind.name), ("value", ← dumpPayload v)]
  | d => .error (notDumpableError d)

/-- The JSON forms of items. -/
def dumpItems : List Datum → Except Error (List Json)
  | [] => .ok []
  | item :: items => do return (← item.dump) :: (← dumpItems items)

/-- The members of the entries of a dictionary. -/
def dumpEntries : List (Datum × Datum) → Except Error (List (String × Json))
  | [] => .ok []
  | (key, item) :: entries => do
    return (← key.dumpKey, ← item.dump) :: (← dumpEntries entries)

/-- The fields of an instance; those in `doubles` keep what is not a finite number. -/
def dumpFields (doubles : List String) :
    List (String × Datum) → Except Error (List (String × Json))
  | [] => .ok []
  | (name, item) :: fields => do
    let value ← match item with
      | .double x => pure (if x.isFinite || doubles.contains name then Json.double x else .null)
      | _ => item.dump
    return (name, value) :: (← dumpFields doubles fields)

end

end Datum

end RecordStore
