import RecordStore.Datum.Basic
import RecordStore.Number.Reading
import RecordStore.Text.Quoted

/-!
# How messages show data

`Datum.show` is the form in which a message shows a datum: texts are quoted, and everything that is
not a plain number or a collection names its type. `Datum.display` is the bare form, which shows a
text as it is. Both forms exist for every datum here; a program can write them only if they have no
whole number with too many digits (`Datum.isWritable`), and who needs one of them asks for that.
-/

namespace RecordStore

/-- Messages write doubles positionally from `0.0001` up to sixteen digits before the point. -/
def messageDoubles : DoubleNotation := ⟨-4, 16, true, 2, "nan", "inf", "-inf"⟩

/-- Texts with a comma and a space between each two. -/
def commaSeparated (items : List String) : String := ", ".intercalate items

/-- The number of a component by its name, if it is not zero. -/
def namedPart (name : String) (n : Int) : List String :=
  if n = 0 then [] else [name ++ "=" ++ toString n]

/-- The offset of a clock, as whole days, seconds of a day and microseconds. -/
def showOffset (offset : Int) : String :=
  if offset = 0 then "datetime.timezone.utc"
  else
    let perDay : Int := Calendar.microsPerDay
    "datetime.timezone(datetime.timedelta(" ++
      commaSeparated (namedPart "days" (offset / perDay) ++
        namedPart "seconds" (offset % perDay / 1000000) ++
        namedPart "microseconds" (offset % 1000000)) ++ "))"

/-- Year to minute, then seconds and microseconds as far as they are not zero. -/
def showClock (t : DateTime) (zone : List String) : String :=
  let parts := [t.date.year, t.date.month, t.date.day, t.hour, t.minute] ++
    (if t.micro ≠ 0 then [t.second, t.micro] else if t.second ≠ 0 then [t.second] else [])
  "datetime.datetime(" ++ commaSeparated (parts.map toString ++ zone) ++ ")"

/-- A clock with a fixed offset, or that of a region. -/
def showZone : Clock → String
  | .fixed offset => showOffset offset
  | .regional region _ _ _ => "zoneinfo.ZoneInfo(key=" ++ Text.quoted region ++ ")"

/-- A reading, whether it is repeated, and its clock. -/
def showMoment (m : Moment) : String :=
  showClock m.reading
    ((if m.clock.isRepeated then ["fold=1"] else []) ++ ["tzinfo=" ++ showZone m.clock])

/-- Items in brackets; a tuple of one item has a comma behind it. -/
def bracketed (left right : String) (items : List String) : String :=
  left ++ commaSeparated items ++ right

/-- The items of a tuple; a tuple of one item has a comma behind it. -/
def showTuple : List String → String
  | [item] => "(" ++ item ++ ",)"
  | items => bracketed "(" ")" items

/-- The items of a set. Empty braces would be a dictionary. -/
def showSet : List String → String
  | [] => "set()"
  | items => bracketed "\x7b" "\x7d" items

/-- The items of a frozen set. -/
def showFrozenSet : List String → String
  | [] => "frozenset()"
  | items => bracketed "frozenset(\x7b" "\x7d)" items

namespace Value

/-- The kind and payload of a backend value. -/
def payloadText : Value → String
  | .null => "None"
  | .boolean b => if b then "True" else "False"
  | .integer n | .long n => toString n
  | .double x => messageDoubles.write x
  | .timestamp m => showMoment m
  | .string s => Text.quoted s
  | .blob b => Text.quotedBytes b
  | .binary b => "Binary(" ++ Text.quotedBytes b ++ ", 0)"

/-- The form in which a message shows a backend value. -/
def «show» (v : Value) : String := "DsValue(" ++ v.kind.name ++ ", " ++ v.payloadText ++ ")"

/-- Whether the payload of a backend value can be written. -/
def isWritable : Value → Bool
  | .integer n | .long n => Number.isShort n
  | _ => true

end Value

namespace Datum

mutual

/-- The form in which a message shows a datum. -/
def «show» : Datum → String
  | .null => "None"
  | .boolean b => if b then "True" else "False"
  | .integer n | .long n => toString n
  | .double x => messageDoubles.write x
  | .text s => Text.quoted s
  | .bytes b => Text.quotedBytes b
  | .buffer b => "bytearray(" ++ Text.quotedBytes b ++ ")"
  | .view _ => "<memory>"
  | .binary b => "Binary(" ++ Text.quotedBytes b ++ ", 0)"
  | .clock t => showClock t []
  | .moment m => showMoment m
  | .date d => bracketed "datetime.date(" ")" ([d.year, d.month, d.day].map toString)
  | .decimal s => "Decimal('" ++ s ++ "')"
  | .uuid s => "UUID('" ++ s ++ "')"
  | .list items => bracketed "[" "]" (showItems items)
  | .tuple items => showTuple (showItems items)
  | .set items => showSet (showItems items)
  | .frozenSet items => showFrozenSet (showItems items)
  | .dict entries => bracketed "\x7b" "\x7d" (showEntries entries)
  | .tagged member => "<Tag.MEMBER: " ++ member.show ++ ">"
  | .version number => "Version(" ++ number.show ++ ")"
  | .unsupported => "<opaque>"
  | .model shape fields _ => bracketed (shape.name ++ "(") ")" (showFields fields)
  | .value v => v.show

/-- The forms of items. -/
def showItems : List Datum → List String
  | [] => []
  | item :: items => item.show :: showItems items

/-- The forms of entries, a colon between key and value. -/
def showEntries : List (Datum × Datum) → List String
  | [] => []
  | (key, item) :: entries => (key.show ++ ": " ++ item.show) :: showEntries entries

/-- The forms of the fields of an instance, each behind its name. -/
def showFields : List (String × Datum) → List String
  | [] => []
  | (name, item) :: fields => (name ++ "=" ++ item.show) :: showFields fields

end

/-- The bare form of a datum. -/
def display : Datum → String
  | .text s => s
  | .clock t => t.toText " "
  | .moment m => m.toText " "
  | .date d => d.toText
  | .decimal s | .uuid s => s
  | .tagged _ => "Tag.MEMBER"
  | .model _ fields _ => " ".intercalate (showFields fields)
  | .binary b => Text.quotedBytes b
  | d => d.show

mutual

/-- Whether a datum can be shown: none of its whole numbers has too many digits. -/
def isWritable : Datum → Bool
  | .integer n | .long n => Number.isShort n
  | .list items | .tuple items | .set items | .frozenSet items => areWritable items
  | .dict entries => areWritableEntries entries
  | .tagged member | .version member => member.isWritable
  | .model _ fields _ => areWritableFields fields
  | .value v => v.isWritable
  | _ => true

/-- Whether each item can be shown. -/
def areWritable : List Datum → Bool
  | [] => true
  | item :: items => item.isWritable && areWritable items

/-- Whether the keys and the values of entries can be shown. -/
def areWritableEntries : List (Datum × Datum) → Bool
  | [] => true
  | (key, item) :: entries => key.isWritable && item.isWritable && areWritableEntries entries

/-- Whether each field of an instance can be shown. -/
def areWritableFields : List (String × Datum) → Bool
  | [] => true
  | (_, item) :: fields => item.isWritable && areWritableFields fields

end

/-- The bare form of a datum, if it can be written. That of a member does not have its value. -/
def display? (d : Datum) : Option String :=
  match d with
  | .tagged _ => some d.display
  | _ => if d.isWritable then some d.display else none

end Datum

end RecordStore
