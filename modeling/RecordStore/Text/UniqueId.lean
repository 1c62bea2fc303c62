import RecordStore.Text.Hex

/-!
# Universally unique identifiers

Numbers of 128 bits, the numbers inside them, and their texts in base sixteen.
-/

namespace RecordStore

/-- A universally unique identifier as a number of 128 bits. -/
structure UniqueId where
  number : Nat
  deriving DecidableEq

namespace UniqueId

/-- The identifier that the digits of base sixteen in a text write. -/
def ofText (text : String) : UniqueId := ⟨Text.Hex.number text.toList⟩

/-- Digits in groups of the given lengths, with a hyphen between two groups. -/
def grouped : List Nat → List Char → List Char
  | [], digits => digits
  | length :: lengths, digits =>
    digits.take length ++ '-' :: grouped lengths (digits.drop length)

/-- The standard text: eight, four, four, four and twelve digits. -/
def toText (u : UniqueId) : String :=
  String.ofList (grouped [8, 4, 4, 4] (Text.Hex.digits 32 u.number))

/-- The identifier of a text of 32 digits. Braces, hyphens and the two words before an identifier
are passed over. -/
def read? (text : String) : Option UniqueId :=
  let text := (text.replace "urn:" "").replace "uuid:" ""
  let digits := text.toList.filter fun c => c ≠ '-' && c ≠ '\x7b' && c ≠ '\x7d'
  if digits.length = 32 ∧ digits.all fun c => (Text.Hex.value? c).isSome then
    some ⟨Text.Hex.number digits⟩
  else none

/-- The number in so many bits behind the first ones. -/
def bits (u : UniqueId) (skipped count : Nat) : Nat :=
  u.number / Nat.pow 2 (128 - skipped - count) % Nat.pow 2 count

/-- The low 32 bits of the time. -/
def timeLow (u : UniqueId) : Nat := u.bits 0 32

/-- The middle 16 bits of the time. -/
def timeMid (u : UniqueId) : Nat := u.bits 32 16

/-- The version, and the high bits of the time. -/
def timeHighVersion (u : UniqueId) : Nat := u.bits 48 16

/-- The variant, and the high bits of the clock sequence. -/
def clockHighVariant (u : UniqueId) : Nat := u.bits 64 8

/-- The low bits of the clock sequence. -/
def clockLow (u : UniqueId) : Nat := u.bits 72 8

/-- The number of the node. -/
def node (u : UniqueId) : Nat := u.bits 80 48

/-- The time without the version in its highest bits. -/
def time (u : UniqueId) : Nat := u.bits 52 12 * 0x1000000000000 + u.timeMid * 0x100000000 + u.timeLow

/-- The clock sequence without the variant in its highest bits. -/
def clockSequence (u : UniqueId) : Nat := u.bits 66 14

/-- The six numbers of an identifier. -/
def fields (u : UniqueId) : List Nat :=
  [u.timeLow, u.timeMid, u.timeHighVersion, u.clockHighVariant, u.clockLow, u.node]

/-- Whether the identifier is of the variant that has versions. -/
def isVersioned (u : UniqueId) : Bool := u.bits 64 2 = 2

/-- The version, if the identifier is of the variant that has them. -/
def version? (u : UniqueId) : Option Nat := if u.isVersioned then some (u.bits 48 4) else none

/-- How the variant of the identifier is called. -/
def variant (u : UniqueId) : String :=
  if u.bits 64 1 = 0 then "reserved for NCS compatibility"
  else if u.isVersioned then "specified in RFC 4122"
  else if u.bits 64 3 = 6 then "reserved for Microsoft compatibility"
  else "reserved for future definition"

/-- The sixteen bytes, the highest one first. -/
def bytes (u : UniqueId) : Bytes := (List.range 16).map fun i => UInt8.ofNat (u.bits (8 * i) 8)

/-- The sixteen bytes with those of the three parts of the time the other way round. -/
def swappedBytes (u : UniqueId) : Bytes :=
  let bytes := u.bytes
  (bytes.take 4).reverse ++ ((bytes.drop 4).take 2).reverse ++ ((bytes.drop 6).take 2).reverse ++
    bytes.drop 8

end UniqueId

end RecordStore
