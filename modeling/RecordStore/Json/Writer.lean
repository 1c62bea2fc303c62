import RecordStore.Json.Basic
import RecordStore.Text.Half
import RecordStore.Text.Quoted

/-!
# JSON texts

Writes JSON values as compact texts. Characters beyond ASCII are written as they are, or, in an
ASCII text, by the numbers of their 16-bit units.
-/

namespace RecordStore.Json

/-- How a text is written: which characters are escaped, and how doubles look. -/
structure Style where
  /-- Whether characters beyond ASCII are escaped. -/
  ascii : Bool
  doubles : DoubleNotation

/-- Doubles of JSON texts are positional from `0.0001` up to sixteen digits before the point. -/
def plainDoubles : DoubleNotation := ⟨-4, 16, true, 2, "NaN", "Infinity", "-Infinity"⟩

/-- The style in which only what has to be is escaped. -/
def plain : Style := ⟨false, plainDoubles⟩

/-- An escape by the number of a 16-bit unit. -/
def unitEscape (n : Nat) : List Char := '\\' :: 'u' :: Text.Hex.digits 4 n

/-- A character beyond the first 65,536 by its two units, or the half that it is kept for. -/
def highEscape (c : Char) : List Char :=
  match Text.Half.unit? c with
  | some unit => unitEscape unit
  | none =>
    unitEscape (0xd800 + (c.toNat - 0x10000) / 0x400) ++
      unitEscape (0xdc00 + (c.toNat - 0x10000) % 0x400)

/-- A character inside a JSON string. -/
def escapeChar (ascii : Bool) (c : Char) : List Char :=
  if c = '"' ∨ c = '\\' then ['\\', c]
  else if c = '\n' then ['\\', 'n']
  else if c = '\r' then ['\\', 'r']
  else if c = '\t' then ['\\', 't']
  else if c.toNat = 8 then ['\\', 'b']
  else if c.toNat = 12 then ['\\', 'f']
  else if c.toNat < 0x20 then unitEscape c.toNat
  else if !ascii || c.toNat < 0x7f then [c]
  else if c.toNat < 0x10000 then unitEscape c.toNat
  else highEscape c

/-- The characters of a string between its quotes. -/
def writeString (style : Style) (s : String) : List Char :=
  '"' :: s.toList.flatMap (escapeChar style.ascii) ++ ['"']

mutual

/-- The characters of a value's text, followed by `rest`. -/
def writeOnto (style : Style) (rest : List Char) : Json → List Char
  | .null => "null".toList ++ rest
  | .boolean true => "true".toList ++ rest
  | .boolean false => "false".toList ++ rest
  | .integer n => (toString n).toList ++ rest
  | .double x => (style.doubles.write x).toList ++ rest
  | .string s => writeString style s ++ rest
  | .array [] => '[' :: ']' :: rest
  | .array (item :: items) => '[' :: writeOnto style (writeItems style (']' :: rest) items) item
  | .object [] => '\x7b' :: '\x7d' :: rest
  | .object ((name, value) :: members) =>
    '\x7b' :: writeString style name ++
      ':' :: writeOnto style (writeMembers style ('\x7d' :: rest) members) value

/-- The further items of an array, each behind a comma. -/
def writeItems (style : Style) (rest : List Char) : List Json → List Char
  | [] => rest
  | item :: items => ',' :: writeOnto style (writeItems style rest items) item

/-- The further members of an object, each behind a comma. -/
def writeMembers (style : Style) (rest : List Char) : List (String × Json) → List Char
  | [] => rest
  | (name, value) :: members =>
    ',' :: writeString style name ++
      ':' :: writeOnto style (writeMembers style rest members) value

end

/-- The text of a value. -/
def write (style : Style) (value : Json) : String := String.ofList (writeOnto style [] value)

/-- The ASCII text of a value. -/
def writeAscii (value : Json) : String := write ⟨true, plainDoubles⟩ value

end RecordStore.Json
