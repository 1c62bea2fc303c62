import RecordStore.Datum.Dump
import RecordStore.Datum.Order
import RecordStore.Sorting

/-!
# Canonical JSON

One text for each structured value: compact JSON with the members of every object in the order of
their keys. It names records whose identifier is an object, and it is how a column of messages
stores its values.
-/

namespace RecordStore

/-- Whether a text is at most another, by the numbers of their characters. -/
def textAtMost (a b : String) : Bool := (List.compareLex compare a.toList b.toList).isLE

/-- The members of an object in the order of their names. -/
def sortMembers (members : List (String × Json)) : List (String × Json) :=
  members.mergeSort fun a b => textAtMost a.1 b.1

namespace Json

mutual

/-- A value with the members of all its objects in the order of their names. -/
def sorted : Json → Json
  | .array items => .array (sortedItems items)
  | .object members => .object (sortMembers (sortedMembers members))
  | other => other

/-- The items of an array, each with its members in order. -/
def sortedItems : List Json → List Json
  | [] => []
  | item :: items => item.sorted :: sortedItems items

/-- The members of an object where they stand, each with its own members in order. -/
def sortedMembers : List (String × Json) → List (String × Json)
  | [] => []
  | (name, item) :: members => (name, item.sorted) :: sortedMembers members

end

end Json

namespace Datum

/-- The entries in the order of their keys. -/
def sortEntries {α : Type} (entries : List (Datum × α)) : Except Error (List (Datum × α)) :=
  Sorting.sort (fun a b => less a.1 b.1) entries

/-- The name that a key has in JSON. -/
def memberName (key : Datum) : Except Error String :=
  match key with
  | .text s => .ok s
  | .null => .ok "null"
  | .boolean b => .ok (if b then "true" else "false")
  | .integer _ | .long _ => key.written
  | .double x => .ok (Json.plainDoubles.write x)
  | _ => .error (.badType (.notKey key.fullTypeName))

/-- The members of an object from entries whose values are still to be computed. -/
def collectMembers : List (Datum × Except Error Json) → Except Error (List (String × Json))
  | [] => .ok []
  | (key, item) :: entries => do
    return (← key.memberName, ← item) :: (← collectMembers entries)

/-- Date, time and offset of the same point of time in universal time. -/
def universalText (m : Moment) : Except Error Json :=
  match m.toUniversal? with
  | some universal => .ok (.string (universal.toText "T"))
  | none => .error (.outOfRange .dateOutOfRange)

/-- A JSON form that is to be written. -/
def writable (value : Json) : Except Error Json :=
  if (Datum.ofJson value).isWritable then .ok value else .error (.badValue .tooLongToWrite)

mutual

/-- The JSON form of a datum with sorted members. -/
def toCanonical : Datum → Except Error Json
  | .null => .ok .null
  | .boolean b => .ok (.boolean b)
  | .integer n | .long n => writable (.integer n)
  | .double x => .ok (.double x)
  | .text s => .ok (.string s)
  | .list items | .tuple items => do return .array (← (canonicalItems items).mapM Prod.snd)
  | .set items | .frozenSet items => do
    -- Members of a set have no order of their own; the form that messages show gives them one.
    if !areWritable items then .error (.badValue .tooLongToWrite)
    let sorted := (canonicalItems items).mergeSort fun a b => textAtMost a.1 b.1
    return .array (← sorted.mapM Prod.snd)
  | .dict entries => do return .object (← collectMembers (← sortEntries (canonicalEntries entries)))
  | .clock t => universalText ⟨t, .universal⟩
  | .moment m => universalText m
  | .date d => .ok (.string d.toText)
  | .decimal s | .uuid s => .ok (.string s)
  | .tagged member => member.toCanonical
  | .model shape fields given => do
    writable (← (Datum.model shape fields given).dump).merged.sorted
  | d => .error (.badType (.notSerializable d.typeName))

/-- The forms of items, each with the text that orders the items of a set. -/
def canonicalItems : List Datum → List (String × Except Error Json)
  | [] => []
  | item :: items => (item.show, item.toCanonical) :: canonicalItems items

/-- The keys of entries, each with the form of its value. -/
def canonicalEntries : List (Datum × Datum) → List (Datum × Except Error Json)
  | [] => []
  | (key, item) :: entries => (key, item.toCanonical) :: canonicalEntries entries

end

/-- The canonical JSON text of a datum. -/
def canonicalJson (d : Datum) : Except Error String := d.toCanonical.map (Json.write Json.plain)

mutual

/-- The JSON form of plain data: null, booleans, numbers, texts, lists and dictionaries. -/
def toPlainJson : Datum → Except Error Json
  | .null => .ok .null
  | .boolean b => .ok (.boolean b)
  | .integer n | .long n => .ok (.integer n)
  | .double x => .ok (.double x)
  | .text s => .ok (.string s)
  | .list items | .tuple items => do return .array (← plainItems items)
  | .dict entries => do return .object (← plainEntries entries)
  | d => .error (.badType (.notEncodable d.typeName))

/-- The JSON forms of plain items. -/
def plainItems : List Datum → Except Error (List Json)
  | [] => .ok []
  | item :: items => do return (← item.toPlainJson) :: (← plainItems items)

/-- The members of plain entries. -/
def plainEntries : List (Datum × Datum) → Except Error (List (String × Json))
  | [] => .ok []
  | (key, item) :: entries => do
    return (← key.memberName, ← item.toPlainJson) :: (← plainEntries entries)

end

end Datum

end RecordStore
