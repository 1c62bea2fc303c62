import RecordStore.Text.Half

/-!
# Bytes and texts

Byte strings, and texts as their UTF-8 bytes. A byte string that came from elsewhere may also hold a
text in 16-bit or 32-bit units; `decodeMarked?` tells them apart by a byte order mark, or by where
the zero bytes of the first two characters lie. Halves of pairs of 16-bit units may stand alone
there.
-/

namespace RecordStore

/-- A byte string. -/
abbrev Bytes := List UInt8

namespace Text

/-- The UTF-8 bytes of a text. -/
def utf8 (text : String) : Bytes := text.toUTF8.toList

/-- The text of UTF-8 bytes, if they are well formed. -/
def ofUtf8? (bytes : Bytes) : Option String := String.fromUTF8? ⟨bytes.toArray⟩

/-- Bytes in which the form of each half of a pair has become that of the character for it. -/
def keepHalves : Bytes → Bytes
  | 0xed :: b :: c :: rest =>
    if 0xa0 ≤ b ∧ b < 0xc0 ∧ 0x80 ≤ c ∧ c < 0xc0 then 0xf3 :: 0xbd :: b :: c :: keepHalves rest
    else 0xed :: keepHalves (b :: c :: rest)
  | b :: rest => b :: keepHalves rest
  | [] => []

/-- The text of UTF-8 bytes that may hold halves of pairs. -/
def ofLooseUtf8? (bytes : Bytes) : Option String := ofUtf8? (keepHalves bytes)

/-- The character of a unit, if it is one, or the one for half of a pair. -/
def unitChar? (unit : Nat) : Option Char :=
  if 0xd800 ≤ unit ∧ unit < 0xe000 then some (Half.char unit)
  else if unit.isValidChar then some (Char.ofNat unit)
  else none

/-- The characters of 16-bit units; the high halves come first. -/
def ofUnits16? : List Nat → Option (List Char)
  | [] => some []
  | high :: low :: rest =>
    if 0xd800 ≤ high ∧ high < 0xdc00 ∧ 0xdc00 ≤ low ∧ low < 0xe000 then do
      let c ← unitChar? (0x10000 + (high - 0xd800) * 0x400 + (low - 0xdc00))
      return c :: (← ofUnits16? rest)
    else do
      let c ← unitChar? high
      return c :: (← ofUnits16? (low :: rest))
  | [unit] => (unitChar? unit).map ([·])

/-- The bytes in groups of two or four, most significant byte first when `big`. -/
def units16? (big : Bool) : Bytes → Option (List Nat)
  | [] => some []
  | a :: b :: rest => do
    let unit := if big then a.toNat * 256 + b.toNat else b.toNat * 256 + a.toNat
    return unit :: (← units16? big rest)
  | [_] => none

/-- The bytes in groups of four, most significant byte first when `big`. -/
def units32? (big : Bool) : Bytes → Option (List Nat)
  | [] => some []
  | a :: b :: c :: d :: rest => do
    let ordered := if big then [a, b, c, d] else [d, c, b, a]
    return ordered.foldl (fun n byte => n * 256 + byte.toNat) 0 :: (← units32? big rest)
  | _ => none

/-- The text of bytes in 16-bit units. -/
def ofWide16? (big : Bool) (bytes : Bytes) : Option String := do
  return String.ofList (← ofUnits16? (← units16? big bytes))

/-- The text of bytes in 32-bit units. -/
def ofWide32? (big : Bool) (bytes : Bytes) : Option String := do
  return String.ofList (← (← units32? big bytes).mapM unitChar?)

/-- The text of bytes whose unit width and byte order show in their first four bytes. -/
def decodeMarked? (bytes : Bytes) : Option String :=
  -- The longer marks go first: one of them begins like a shorter one.
  if [0, 0, 0xfe, 0xff].isPrefixOf bytes then ofWide32? true (bytes.drop 4)
  else if [0xff, 0xfe, 0, 0].isPrefixOf bytes then ofWide32? false (bytes.drop 4)
  else if [0xfe, 0xff].isPrefixOf bytes then ofWide16? true (bytes.drop 2)
  else if [0xff, 0xfe].isPrefixOf bytes then ofWide16? false (bytes.drop 2)
  else if [0xef, 0xbb, 0xbf].isPrefixOf bytes then ofLooseUtf8? (bytes.drop 3)
  else
    match bytes with
    -- Without a mark, the first character is taken to be an ASCII one.
    | a :: b :: c :: d :: _ =>
      if a = 0 then if b = 0 then ofWide32? true bytes else ofWide16? true bytes
      else if b = 0 then if c = 0 ∧ d = 0 then ofWide32? false bytes else ofWide16? false bytes
      else ofLooseUtf8? bytes
    | [a, b] =>
      if a = 0 then ofWide16? true bytes
      else if b = 0 then ofWide16? false bytes
      else ofLooseUtf8? bytes
    | _ => ofLooseUtf8? bytes

end Text

end RecordStore
