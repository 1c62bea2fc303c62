import RecordStore.Datum.Elements
import RecordStore.Number.Reading

/-!
# Backend values of data

The ways in which domain data become backend values: checked against a kind, converted to the
payload of a kind, or by the kind that the datum itself suggests.
-/

namespace RecordStore

namespace Datum

/-- The ASCII text of bytes; other bytes become question marks. -/
def asciiText (bytes : Bytes) : String :=
  String.ofList (bytes.map fun b => if b < 128 then Char.ofNat b.toNat else '?')

/-- The double nearest to a whole number, which must not be too large. -/
def doubleOfInt (n : Int) : Except Error Double :=
  match Double.ofInt? n with
  | some x => .ok x
  | none => .error (.outOfRange .integerToDouble)

/-- The double that a text writes; the error shows the datum that gave the text. -/
def doubleOfText (given : Datum) (text : String) : Except Error Double :=
  match Number.readDouble? text with
  | some x => .ok x
  | none => .error (.badValue (.notDecimal given))

/-- The double nearest to a decimal number; not a number is one whatever it carries, unless it
signals. -/
def doubleOfDecimal (given : Datum) (text : String) : Except Error Double :=
  if Number.isSignaling text then .error (.badValue .signalingDecimal)
  else if "NaN".toList.isPrefixOf (Number.takeSign text.toList).2 then .ok .nan
  else doubleOfText given text

/-- The double nearest to a number, or to the number that a text writes. -/
def toDouble (d : Datum) : Except Error Double :=
  match d with
  | .boolean b => doubleOfInt (if b then 1 else 0)
  | .integer n | .long n => doubleOfInt n
  | .double x => .ok x
  | .text s => doubleOfText d s
  | .decimal s => doubleOfDecimal d s
  | .bytes b | .buffer b | .view b | .binary b => doubleOfText d (asciiText b)
  | _ => .error (.badType (.notNumber d.fullTypeName))

/-- A byte from a number. -/
def toByte (d : Datum) : Except Error UInt8 :=
  let ofInt (n : Int) : Except Error UInt8 :=
    if 0 ≤ n ∧ n < 256 then .ok (UInt8.ofNat n.toNat) else .error (.badValue .notByteRange)
  match d with
  | .boolean b => ofInt (if b then 1 else 0)
  | .integer n | .long n => ofInt n
  | _ => .error (.badType (.notByte d.fullTypeName))

/-- So many zero bytes, the count being given by a datum of the named type. -/
def zeroBytes (typeName : String) (count : Int) : Except Error Bytes :=
  if count < -0x8000000000000000 ∨ 0x8000000000000000 ≤ count then
    .error (.outOfRange (.countTooLarge typeName))
  else if count < 0 then .error (.badValue .negativeCount)
  else if count < 0x80000000 then .ok (List.replicate count.toNat 0)
  -- Counts near the end of a word leave no room for what precedes the bytes in memory.
  else if 0x8000000000000000 - 33 ≤ count then .error (.outOfRange .byteStringTooLarge)
  else .error (.foreign "MemoryError" "")

/-- The bytes of a byte string, of numbers that can be gone through, or so many zero bytes. -/
def toBytes (d : Datum) : Except Error Bytes :=
  match d with
  | .bytes b | .buffer b | .view b | .binary b => .ok b
  | .boolean b => zeroBytes d.typeName (if b then 1 else 0)
  | .integer n | .long n => zeroBytes d.typeName n
  | .text _ => .error (.badType .textWithoutEncoding)
  | _ =>
    match d.elements with
    | .ok items => items.mapM toByte
    | .error _ => .error (.badType (.notByteSource d.fullTypeName))

end Datum

namespace Value

/-- The value of a kind whose payload is exactly the datum. -/
def ofKind (kind : ValueKind) (d : Datum) : Except Error Value :=
  match kind, d with
  | .null, .null => .ok .null
  | .boolean, .boolean b => .ok (.boolean b)
  | .integer, .integer n => .ok (.integer n)
  | .integer, .long n => .ok (.long n)
  | .double, .double x => .ok (.double x)
  | .timestamp, .moment m => .ok (.timestamp m)
  | .string, .text s => .ok (.string s)
  | .blob, .bytes b => .ok (.blob b)
  | .blob, .binary b => .ok (.binary b)
  | _, _ => .error (.badType (.notPayload d.typeName kind))

/-- The point of time as a timestamp of universal time. -/
def ofMoment (m : Moment) : Except Error Value :=
  match m.toUniversal? with
  | some universal => .ok (.timestamp universal)
  | none => .error (.outOfRange .dateOutOfRange)

/-- The timestamp of a point of time; an unnamed clock is taken to show universal time. -/
def ofTimestamp (d : Datum) : Except Error Value :=
  match d with
  | .clock t => ofMoment ⟨t, .universal⟩
  | .moment m => ofMoment m
  | _ => .error (.noAttribute d.fullTypeName "tzinfo")

/-- The value of the kind that the datum's own type suggests. -/
def infer (d : Datum) : Except Error Value :=
  match d with
  | .null => .ok .null
  | .boolean b => .ok (.boolean b)
  | .integer n => .ok (.integer n)
  | .long n => .ok (.long n)
  | .double x => .ok (.double x)
  | .clock t => ofMoment ⟨t, .universal⟩
  | .moment m => ofMoment m
  | .text s => .ok (.string s)
  | .bytes b | .buffer b | .binary b => .ok (.blob b)
  | _ => .error (.badType (.noKind d.typeName))

/-- The parameters of a constructor by its name; that of a kind takes the kind first. -/
def constructorSignature (name : String) : Signature :=
  if name.startsWith "kind:" then
    { callee := "DsValue.__init__", required := ["kind"], optional := ["value"] }
  else if name = "null" then { callee := "DsValue.null" }
  else { callee := "DsValue." ++ name, required := ["value"] }

/-- The value that a constructor makes of a datum; there is none of an unknown name. -/
def construct? (name : String) (d : Datum) : Option (Except Error Value) :=
  match name with
  | "null" => some (.ok .null)
  | "of_bool" => some (ofKind .boolean d)
  | "of_int" => some (ofKind .integer d)
  | "of_str" => some (ofKind .string d)
  | "of_float" => some (d.toDouble.map .double)
  | "of_timestamp" => some (ofTimestamp d)
  | "of_bytes" => some (d.toBytes.map .blob)
  | "infer" => some (infer d)
  | _ => (ValueKind.ofName? (name.drop 5).toString).map fun kind => ofKind kind d

/-- The value that a constructor makes of some arguments. -/
def ofArguments? (name : String) (arguments : List Datum) : Option (Except Error Value) :=
  let signature := constructorSignature name
  let given := arguments.length + (if signature.optional = [] then 0 else 1)
  match signature.fault? given [] with
  | some fault => some (.error (.badType (.arguments fault)))
  | none => construct? name (arguments.headD .null)

end Value

end RecordStore
