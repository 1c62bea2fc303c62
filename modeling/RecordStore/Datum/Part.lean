import RecordStore.Assoc
import RecordStore.Datum.Basic
import RecordStore.Text.Path
import RecordStore.Text.UniqueId

/-!
# Parts of data

The parts that a datum has by name: the entries of a dictionary, the fields of a model, the year of
a date, the numbers inside a universally unique identifier and so on. A dotted path leads from part
to part; where a link is missing, to null.
-/

namespace RecordStore

namespace Datum

/-- A count as a datum. -/
def ofNat (n : Nat) : Datum := .integer n

/-- A part of a universally unique identifier by name. -/
def uuidPart (text name : String) : Datum :=
  let u := UniqueId.ofText text
  match name with
  | "hex" => .text (String.ofList (Text.Hex.digits 32 u.number))
  | "int" => ofNat u.number
  | "bytes" => .bytes u.bytes
  | "bytes_le" => .bytes u.swappedBytes
  | "fields" => .tuple (u.fields.map ofNat)
  | "time_low" => ofNat u.timeLow
  | "time_mid" => ofNat u.timeMid
  | "time_hi_version" => ofNat u.timeHighVersion
  | "clock_seq_hi_variant" => ofNat u.clockHighVariant
  | "clock_seq_low" => ofNat u.clockLow
  | "clock_seq" => ofNat u.clockSequence
  | "node" => ofNat u.node
  | "time" => ofNat u.time
  | "urn" => .text ("urn:uuid:" ++ text)
  | "variant" => .text u.variant
  | "version" => (u.version?.map ofNat).getD .null
  | "is_safe" => .tagged .null
  | _ => .null

/-- A part of a whole number by name; it is a fraction, and a complex number on the real line. -/
def wholePart (n : Int) (name : String) : Datum :=
  match name with
  | "real" | "numerator" => .integer n
  | "imag" => .integer 0
  | "denominator" => .integer 1
  | _ => .null

/-- A part of a view of bytes by name. -/
def viewPart (bytes : Bytes) (name : String) : Datum :=
  match name with
  | "obj" => .bytes bytes
  | "nbytes" => ofNat bytes.length
  | "itemsize" | "ndim" => .integer 1
  | "readonly" | "c_contiguous" | "f_contiguous" | "contiguous" => .boolean true
  | "format" => .text "B"
  | "shape" => .tuple [ofNat bytes.length]
  | "strides" => .tuple [.integer 1]
  | "suboffsets" => .tuple []
  | _ => .null

/-- The readings that clocks begin and end with. -/
def clockLimits : List (String × Int) :=
  [("min", -62135596800000000), ("max", 253402300799999999)]

/-- The reading at the beginning or end of all clocks. -/
def clockLimit (name : String) : Option DateTime :=
  (Assoc.get? name clockLimits).bind DateTime.ofMicros?

/-- A part of a date by name. -/
def datePart (t : Date) (name : String) : Datum :=
  match name with
  | "year" => ofNat t.year
  | "month" => ofNat t.month
  | "day" => ofNat t.day
  | _ => ((clockLimit name).map fun limit => Datum.date limit.date).getD .null

/-- A part of a reading of a clock by name. -/
def clockPart (t : DateTime) (name : String) : Datum :=
  match name with
  | "hour" => ofNat t.hour
  | "minute" => ofNat t.minute
  | "second" => ofNat t.second
  | "microsecond" => ofNat t.micro
  | "fold" => .integer 0
  | "year" | "month" | "day" => datePart t.date name
  | _ => ((clockLimit name).map Datum.clock).getD .null

/-- A part of a model instance by name: a field, or what the instance knows about its fields. -/
def modelPart (fields : List (String × Datum)) (given : List String) (name : String) : Datum :=
  match Assoc.get? name fields, name with
  | some d, _ => d
  | none, "model_fields_set" => .set (given.map .text)
  | none, "model_config" | none, "model_computed_fields" => .dict []
  | none, _ => .null

/-- A part of a backend value by name. -/
def valuePart (v : Value) (name : String) : Datum :=
  match name with
  | "kind" => .text v.kind.name
  | "value" => .ofValue v
  | "is_null" => .boolean v.isNull
  | _ => .null

/-- A part of a datum by name. -/
def part (d : Datum) (name : String) : Datum :=
  match d with
  | .dict entries => (lookup name entries).getD .null
  | .model _ fields given => modelPart fields given name
  | .version number => if name = "number" then number else .null
  | .tagged member =>
    match name with
    | "value" | "_value_" => member
    | "name" | "_name_" => .text "MEMBER"
    | _ => .null
  | .boolean b => wholePart (if b then 1 else 0) name
  | .integer n | .long n => wholePart n name
  | .double x => if name = "real" then .double x else if name = "imag" then .double .zero else .null
  | .decimal s =>
    if name = "real" then .decimal s else if name = "imag" then .decimal "0" else .null
  | .uuid s => uuidPart s name
  | .view b => viewPart b name
  | .binary _ => if name = "subtype" then .integer 0 else .null
  | .date t => datePart t name
  | .clock t => clockPart t name
  | .moment m =>
    if name = "fold" then .integer (if m.clock.isRepeated then 1 else 0)
    else clockPart m.reading name
  | .value v => valuePart v name
  | _ => .null

/-- The part that some names lead to. The kind of a backend value is a word with a name and value of
its own. -/
def follow (d : Datum) : List String → Datum
  | [] => d
  | name :: rest =>
    match d, name, rest with
    | .value v, "kind", "value" :: rest => follow (.text v.kind.name) rest
    | .value v, "kind", "name" :: rest => follow (.text v.kind.name.toUpper) rest
    | _, _, rest => follow (d.part name) rest

/-- The names of a dotted path. -/
def pathParts (path : String) : List String := Text.dottedNames path

/-- The part that a dotted path leads to. -/
def resolve (d : Datum) (path : String) : Datum := d.follow (pathParts path)

/-- A name without a point leads to the part of this name. -/
theorem resolve_of_undotted {name : String} (h : '.' ∉ name.toList) (d : Datum) :
    d.resolve name = d.part name := by
  rw [resolve, pathParts, Text.dottedNames_of_undotted h, follow]
  · rfl
  -- Only a longer path reads the word of a backend value's kind.
  all_goals exact fun _ _ _ _ => nofun

end Datum

end RecordStore
