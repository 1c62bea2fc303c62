import RecordStore.Text.Hex

/-!
# Where bytes are no text

The first place at which bytes stop being UTF-8: the bytes from there that could still have begun a
character, or all that are left where the last character is cut short.
-/

namespace RecordStore.Text

/-- The bytes that begin no character: the first of them, its position, and the position behind the
last. -/
structure IllFormed where
  first : UInt8
  start : Nat
  stop : Nat
  deriving DecidableEq

/-- How far the character behind a leading byte goes. -/
inductive CharScan
  /-- It is well formed and has so many bytes. -/
  | complete (length : Nat)
  /-- So many of its bytes are well formed, and the next one does not follow them. -/
  | broken (length : Nat)
  /-- The bytes end before the character does. -/
  | cut

/-- Whether a byte lies between two others. -/
def isBetween (low high byte : UInt8) : Bool := low ≤ byte && byte ≤ high

/-- Scans the bytes of a character behind the first `done` ones; each has bounds of its own. -/
def scanTail (done : Nat) : List (UInt8 × UInt8) → Bytes → CharScan
  | [], _ => .complete done
  | _ :: _, [] => .cut
  | (low, high) :: bounds, byte :: rest =>
    if isBetween low high byte then scanTail (done + 1) bounds rest else .broken done

/-- The bounds of the bytes behind a leading byte; `none` if it leads no character. -/
def tailBounds? (lead : UInt8) : Option (List (UInt8 × UInt8)) :=
  let tail : UInt8 × UInt8 := (0x80, 0xbf)
  if lead < 0x80 then some []
  else if isBetween 0xc2 0xdf lead then some [tail]
  else if lead = 0xe0 then some [(0xa0, 0xbf), tail]
  else if lead = 0xed then some [(0x80, 0x9f), tail]
  else if isBetween 0xe1 0xef lead then some [tail, tail]
  else if lead = 0xf0 then some [(0x90, 0xbf), tail, tail]
  else if isBetween 0xf1 0xf3 lead then some [tail, tail, tail]
  else if lead = 0xf4 then some [(0x80, 0x8f), tail, tail]
  else none

/-- The first fault of bytes that begin at a position; `fuel` bounds the characters before it. -/
def firstFaultFrom (position : Nat) : Nat → Bytes → Option IllFormed
  | _, [] | 0, _ => none
  | fuel + 1, lead :: rest =>
    match tailBounds? lead with
    | none => some ⟨lead, position, position + 1⟩
    | some bounds =>
      match scanTail 1 bounds rest with
      | .complete length =>
        firstFaultFrom (position + length) fuel (rest.drop (length - 1))
      | .broken length => some ⟨lead, position, position + length⟩
      | .cut => some ⟨lead, position, position + 1 + rest.length⟩

/-- The first fault of bytes that are not well-formed UTF-8. -/
def firstFault? (bytes : Bytes) : Option IllFormed := firstFaultFrom 0 bytes.length bytes

namespace IllFormed

/-- What messages say about a fault. -/
def message (fault : IllFormed) : String :=
  let bytes :=
    if fault.stop = fault.start + 1 then
      "byte 0x" ++ String.ofList (Hex.digits 2 fault.first.toNat) ++ " in position " ++
        toString fault.start
    else
      "bytes in position " ++ toString fault.start ++ "-" ++ toString (fault.stop - 1)
  "'utf-8' codec can't decode " ++ bytes ++ ": invalid utf-8"

end IllFormed

end RecordStore.Text
