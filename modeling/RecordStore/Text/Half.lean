/-!
# Halves of pairs

Where characters are written by 16-bit units, those of the higher planes are pairs of units, and
half of a pair may stand alone. No text holds such a half; it is kept as a character for private use
whose number tells which half it is.
-/

namespace RecordStore.Text.Half

/-- The character that a half is kept as. -/
def char (unit : Nat) : Char := Char.ofNat (0xf0000 + unit)

/-- The half that a character is kept for. -/
def unit? (c : Char) : Option Nat :=
  if 0xfd800 ≤ c.toNat ∧ c.toNat < 0xfe000 then some (c.toNat - 0xf0000) else none

end RecordStore.Text.Half
