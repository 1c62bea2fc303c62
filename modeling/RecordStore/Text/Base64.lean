import RecordStore.Text.Utf8

/-!
# Base 64

Three bytes are written as four characters of six bits; a last group of one or two bytes is padded
with `=`. `decode?` reads such text. A strict reading admits the alphabet alone and padding only at
the end, where the last group gets what it needs and a whole text may get more; a lenient one skips
foreign characters and stops at the padding that completes a group.
-/

namespace RecordStore.Text.Base64

/-- The character of six bits in the alphabet that is safe in addresses. -/
def digit (n : Nat) : Char :=
  if n < 26 then Char.ofNat (65 + n)
  else if n < 52 then Char.ofNat (97 + (n - 26))
  else if n < 62 then Char.ofNat (48 + (n - 52))
  else if n = 62 then '-'
  else '_'

/-- The text of bytes in the alphabet that is safe in addresses. -/
def encode : Bytes → List Char
  | [] => []
  | [a] => [digit (a.toNat / 4), digit (a.toNat % 4 * 16), '=', '=']
  | [a, b] =>
    [digit (a.toNat / 4), digit (a.toNat % 4 * 16 + b.toNat / 16), digit (b.toNat % 16 * 4), '=']
  | a :: b :: c :: rest =>
    digit (a.toNat / 4) :: digit (a.toNat % 4 * 16 + b.toNat / 16) ::
      digit (b.toNat % 16 * 4 + c.toNat / 64) :: digit (c.toNat % 64) :: encode rest

/-- The six bits of a character of the common alphabet. -/
def value? (c : Char) : Option Nat :=
  if 'A' ≤ c ∧ c ≤ 'Z' then some (c.toNat - 65)
  else if 'a' ≤ c ∧ c ≤ 'z' then some (c.toNat - 97 + 26)
  else if '0' ≤ c ∧ c ≤ '9' then some (c.toNat - 48 + 52)
  else if c = '+' then some 62
  else if c = '/' then some 63
  else none

/-- The common alphabet's character for one of the alphabet that is safe in addresses. -/
def common (c : Char) : Char := if c = '-' then '+' else if c = '_' then '/' else c

/-- Reads on inside a group of which `held` characters are known and the bits `left` are not yet
part of a byte; `pads` counts padding seen since the last character. -/
def decodeFrom (strict : Bool) (held left pads : Nat) : List Char → Option Bytes
  | [] => if held = 0 then some [] else none
  | c :: rest =>
    if c = '=' then
      -- Padding after fewer than two characters completes no byte.
      if held < 2 then
        if !strict then decodeFrom strict held left pads rest
        else if held = 0 ∧ rest.all (· = '=') then some []
        else none
      -- The group is complete here, so that whatever follows is not read.
      else if 4 ≤ held + (pads + 1) then
        if strict ∧ rest ≠ [] then none else some []
      else decodeFrom strict held left (pads + 1) rest
    else
      match value? c with
      | none => if strict then none else decodeFrom strict held left pads rest
      | some bits =>
        -- A strict reading admits no characters behind padding.
        if strict ∧ pads ≠ 0 then none
        else
          match held with
          | 0 => decodeFrom strict 1 bits 0 rest
          | 1 => (UInt8.ofNat (left * 4 + bits / 16) :: ·) <$> decodeFrom strict 2 (bits % 16) 0 rest
          | 2 => (UInt8.ofNat (left * 16 + bits / 4) :: ·) <$> decodeFrom strict 3 (bits % 4) 0 rest
          | _ => (UInt8.ofNat (left * 64 + bits) :: ·) <$> decodeFrom strict 0 0 0 rest

/-- The bytes of a text in the common alphabet. -/
def decode? (strict : Bool) (text : List Char) : Option Bytes :=
  if strict ∧ text.head? = some '=' then none else decodeFrom strict 0 0 0 text

end RecordStore.Text.Base64
