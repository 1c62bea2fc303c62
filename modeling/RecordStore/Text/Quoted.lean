import RecordStore.Text.Half
import RecordStore.Text.Hex
import RecordStore.Text.Printable

/-!
# Quoted texts

How messages show a text or a byte string: between quotes, with backslash escapes for the quote, the
backslash, line breaks and tabs, and a number in base sixteen for whatever is not printable. The
quote is single unless the text holds a single quote and no double one.
-/

namespace RecordStore.Text

/-- The quote that a text is shown in. -/
def quoteMark (text : List Char) : Char :=
  if text.contains '\'' && !text.contains '"' then '"' else '\''

/-- A character that is not printable, by its number, or by that of the half that it is kept for. -/
def numberEscape (c : Char) : List Char :=
  match Half.unit? c with
  | some unit => '\\' :: 'u' :: Hex.digits 4 unit
  | none =>
    if c.toNat < 0x100 then '\\' :: 'x' :: Hex.digits 2 c.toNat
    else if c.toNat < 0x10000 then '\\' :: 'u' :: Hex.digits 4 c.toNat
    else '\\' :: 'U' :: Hex.digits 8 c.toNat

/-- A character inside a quoted text. -/
def quoteChar (mark c : Char) : List Char :=
  if c = mark ∨ c = '\\' then ['\\', c]
  else if c = '\n' then ['\\', 'n']
  else if c = '\r' then ['\\', 'r']
  else if c = '\t' then ['\\', 't']
  else if isPrintable c then [c]
  else numberEscape c

/-- A text in quotes. -/
def quoted (text : String) : String :=
  let chars := text.toList
  let mark := quoteMark chars
  String.ofList (mark :: chars.flatMap (quoteChar mark) ++ [mark])

/-- A byte inside quoted bytes. -/
def quoteByte (mark : Char) (byte : UInt8) : List Char :=
  let c := Char.ofNat byte.toNat
  if c = mark ∨ c = '\\' then ['\\', c]
  else if c = '\n' then ['\\', 'n']
  else if c = '\r' then ['\\', 'r']
  else if c = '\t' then ['\\', 't']
  else if 0x20 ≤ byte ∧ byte < 0x7f then [c]
  else '\\' :: 'x' :: Hex.digits 2 byte.toNat

/-- Bytes in quotes, behind the letter `b`. -/
def quotedBytes (bytes : Bytes) : String :=
  let mark := quoteMark (bytes.map fun byte => Char.ofNat byte.toNat)
  String.ofList ('b' :: mark :: bytes.flatMap (quoteByte mark) ++ [mark])

end RecordStore.Text
