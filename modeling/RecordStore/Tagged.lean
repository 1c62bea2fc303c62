import RecordStore.Datum.ToValue
import RecordStore.Json.Writer
import RecordStore.Model.Schema
import RecordStore.Number.DecimalText
import RecordStore.Text.UniqueId

/-!
# Tagged JSON

A form of data in JSON that loses nothing: what JSON lacks is an object with one member, whose name
begins with a dollar sign and tells the sort of datum. `Datum.ofTagged` reads it and
`Datum.toTagged` writes it; a few sorts that only differ in how they are held in memory are written
as one.
-/

namespace RecordStore

/-- The error of tagged JSON that says nothing. -/
def badTag (tag : String) : Error := .foreign "MalformedRequest" tag

namespace Datum

/-- Whether a name is that of a tag. -/
def isTag (name : String) : Bool := name.startsWith "$"

/-! ### Reading -/

/-- The whole number of a text; the number of its digits is limited. -/
def wholeOfTag (text : String) : Except Error Int :=
  let count := (text.toList.filter Char.isDigit).length
  match Number.readInteger? text with
  | some n => .ok n
  | none =>
    .error (.badValue (if Number.maxDigits < count then .tooManyDigits count
      else .stated ("invalid literal for int() with base 10: " ++ Text.quoted text)))

/-- The error of a text that is no point of time. -/
def notStamp (text : String) : Error :=
  .badValue (.stated ("Invalid isoformat string: " ++ Text.quoted text))

/-- A point of time of a text. -/
def stampOfTag (text : String) : Except Error Datum :=
  match Calendar.read? text.toList with
  | some (.unplaced t) => .ok (.clock t)
  | some (.placed m) => .ok (.moment m)
  | none => .error (notStamp text)

/-- A date of a text. -/
def dateOfTag (text : String) : Except Error Datum :=
  match Calendar.read? text.toList with
  | some (.unplaced t) => .ok (.date t.date)
  | _ => .error (notStamp text)

/-- A decimal of a text. -/
def decimalOfTag (text : String) : Except Error Datum :=
  match Number.decimalText? text with
  | some shown => .ok (.decimal shown)
  | none => .error (.foreign "InvalidOperation" "[<class 'decimal.ConversionSyntax'>]")

/-- A universally unique identifier of a text. -/
def uuidOfTag (text : String) : Except Error Datum :=
  match UniqueId.read? text with
  | some u => .ok (.uuid u.toText)
  | none => .error (.badValue (.stated "badly formed hexadecimal UUID string"))

/-- The datum of a tag whose content is a text. -/
def scalarOfTag (tag text : String) : Except Error Datum :=
  let chars := text.toList
  let bytes := (Text.Hex.decode? chars).getD []
  match tag with
  | "$int" => (wholeOfTag text).map .integer
  | "$int64" => (wholeOfTag text).map .long
  | "$float" => .ok (.double (Double.ofBits (Text.Hex.number chars)))
  | "$dt" => stampOfTag text
  | "$date" => dateOfTag text
  | "$decimal" => decimalOfTag text
  | "$uuid" => uuidOfTag text
  | "$bytes" => .ok (.bytes bytes)
  | "$bytearray" => .ok (.buffer bytes)
  | "$memoryview" => .ok (.view bytes)
  | "$binary" => .ok (.binary bytes)
  | _ => .error (badTag tag)

/-- The datum of a tag whose content is a list of data. -/
def collectionOfTag (tag : String) (items : List Datum) : Except Error Datum :=
  match tag with
  | "$tuple" => .ok (.tuple items)
  | "$set" => do
    checkAllHashable items
    return .set (distinct items)
  | "$frozenset" => do
    checkAllHashable items
    return .frozenSet (distinct items)
  | _ => .error (badTag tag)

mutual

/-- The datum of tagged JSON; models are looked up in a catalog. -/
def ofTagged (c : Catalog) : Json → Except Error Datum
  | .null => .ok .null
  | .boolean b => .ok (.boolean b)
  | .integer n => .ok (.integer n)
  | .double x => .ok (.double x)
  | .string s => .ok (.text s)
  | .array items => do return .list (← ofTaggedItems c items)
  | .object [(name, content)] =>
    if !isTag name then do return .ofFields [(name, ← ofTagged c content)]
    else
      match name, content with
      | "$enum", content => do return .tagged (← ofTagged c content)
      | "$version", content => do return .version (← ofTagged c content)
      | "$opaque", _ => .ok .unsupported
      | "$dict", .array pairs => do return .ofEntries (← ofTaggedPairs c pairs)
      | "$model", .array (.string modelName :: .object members :: _) =>
        match c.find? modelName with
        | none => .error (badTag modelName)
        | some schema => do return schema.construct (← ofTaggedMembers c members)
      | "$ds", .array (.string kind :: payload :: _) =>
        match ValueKind.ofName? kind with
        | none => .error (.badValue (.stated (Text.quoted kind ++ " is not a valid ValueKind")))
        | some kind => do return .value (← Value.ofKind kind (← ofTagged c payload))
      | tag, .array items => do collectionOfTag tag (← ofTaggedItems c items)
      | tag, .string s => scalarOfTag tag s
      | tag, _ => .error (badTag tag)
  | .object members => do return .ofFields (← ofTaggedMembers c members)

/-- The data of the items of an array. -/
def ofTaggedItems (c : Catalog) : List Json → Except Error (List Datum)
  | [] => .ok []
  | item :: items => do return (← ofTagged c item) :: (← ofTaggedItems c items)

/-- The data of the members of an object. -/
def ofTaggedMembers (c : Catalog) : List (String × Json) → Except Error (List (String × Datum))
  | [] => .ok []
  | (name, item) :: members => do
    return (name, ← ofTagged c item) :: (← ofTaggedMembers c members)

/-- The entries of pairs of a key and a value. -/
def ofTaggedPairs (c : Catalog) : List Json → Except Error (List (Datum × Datum))
  | [] => .ok []
  | .array [key, item] :: pairs => do
    let key ← ofTagged c key
    let item ← ofTagged c item
    key.checkHashable
    return (key, item) :: (← ofTaggedPairs c pairs)
  | _ :: _ => .error (badTag "$dict")

end

/-! ### Writing -/

/-- A content under a tag. -/
def tag (name : String) (content : Json) : Json := .object [(name, content)]

/-- A whole number by its digits. -/
def wholeTag (n : Int) : Json := tag "$int" (.string (toString n))

/-- A double by its bits. -/
def doubleTag (x : Double) : Json :=
  tag "$float" (.string (String.ofList (Text.Hex.digits 16 x.toBits)))

/-- Bytes by their digits of base sixteen, under the tag of their sort. -/
def bytesTag (name : String) (bytes : Bytes) : Json :=
  tag name (.string (String.ofList (Text.Hex.encode bytes)))

/-- The tag of a backend value; its payload holds no other data. -/
def valueTag (v : Value) : Json :=
  let payload : Json := match v with
    | .null => .null
    | .boolean b => .boolean b
    | .integer n => wholeTag n
    | .long n => tag "$int64" (.string (toString n))
    | .double x => doubleTag x
    | .timestamp m => tag "$dt" (.string (m.toText "T"))
    | .string s => .string s
    | .blob b => bytesTag "$bytes" b
    | .binary b => bytesTag "$binary" b
  tag "$ds" (.array [.string v.kind.name, payload])

/-- Whether an entry must be written as a pair: its key is no text, or looks like a tag. -/
def needsPair (entry : Datum × Datum) : Bool :=
  match entry.1 with
  | .text s => isTag s
  | _ => true

/-- The items of a set in the order of their texts. -/
def sortedByText (items : List Json) : List Json :=
  let written := items.map fun item => (Json.writeAscii item, item)
  (written.mergeSort fun a b => a.1 ≤ b.1).map Prod.snd

mutual

/-- Tagged JSON of a datum. -/
def toTagged : Datum → Json
  | .null => .null
  | .boolean b => .boolean b
  | .integer n => wholeTag n
  | .long n => tag "$int64" (.string (toString n))
  | .double x => doubleTag x
  | .text s => .string s
  | .bytes b | .buffer b | .view b => bytesTag "$bytes" b
  | .binary b => bytesTag "$binary" b
  | .clock t => tag "$dt" (.string (t.toText "T"))
  | .moment m => tag "$dt" (.string (m.toText "T"))
  | .date t => tag "$date" (.string t.toText)
  | .decimal s => tag "$decimal" (.string s)
  | .uuid s => tag "$uuid" (.string s)
  | .list items => .array (toTaggedItems items)
  | .tuple items => tag "$tuple" (.array (toTaggedItems items))
  | .set items | .frozenSet items => tag "$set" (.array (sortedByText (toTaggedItems items)))
  | .dict entries =>
    if entries.any needsPair then tag "$dict" (.array (toTaggedPairs entries))
    else .object (toTaggedEntries entries)
  | .tagged member => tag "$enum" (toTagged member)
  | .version number => tag "$version" (toTagged number)
  | .unsupported => tag "$opaque" (.boolean true)
  | .model shape fields _ =>
    tag "$model" (.array [.string shape.name, .object (toTaggedMembers fields)])
  | .value v => valueTag v

/-- Tagged JSON of items. -/
def toTaggedItems : List Datum → List Json
  | [] => []
  | item :: items => toTagged item :: toTaggedItems items

/-- The members of the fields of a model. -/
def toTaggedMembers : List (String × Datum) → List (String × Json)
  | [] => []
  | (name, item) :: members => (name, toTagged item) :: toTaggedMembers members

/-- The members of entries with text keys. -/
def toTaggedEntries : List (Datum × Datum) → List (String × Json)
  | [] => []
  | (key, item) :: entries => (key.display, toTagged item) :: toTaggedEntries entries

/-- The pairs of entries with keys of any sort. -/
def toTaggedPairs : List (Datum × Datum) → List Json
  | [] => []
  | (key, item) :: entries => .array [toTagged key, toTagged item] :: toTaggedPairs entries

end

end Datum

mutual

/-- Whether tagged JSON holds a whole number with more digits than can be written. -/
def Json.hasLongNumber : Json → Bool
  | .array items => itemsHaveLongNumber items
  | .object [(name, .string s)] =>
    (name = "$int" || name = "$int64") &&
      Number.maxDigits < (s.toList.filter Char.isDigit).length
  | .object members => membersHaveLongNumber members
  | _ => false

/-- Whether an item holds such a number. -/
def itemsHaveLongNumber : List Json → Bool
  | [] => false
  | item :: items => item.hasLongNumber || itemsHaveLongNumber items

/-- Whether a member holds such a number. -/
def membersHaveLongNumber : List (String × Json) → Bool
  | [] => false
  | (_, item) :: members => item.hasLongNumber || membersHaveLongNumber members

end

end RecordStore
