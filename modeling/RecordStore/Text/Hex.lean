import RecordStore.Text.Utf8

/-!
# Base 16

Whole numbers in digits of base sixteen, and bytes as pairs of such digits. Writing uses small
letters, reading takes both cases.
-/

namespace RecordStore.Text.Hex

/-- A digit of base sixteen. -/
def digit (n : Nat) : Char := Char.ofNat (if n < 10 then 48 + n else 87 + n)

/-- The last `width` digits of `n` in base sixteen. -/
def digits (width n : Nat) : List Char :=
  (List.range width).map fun i => digit (n / Nat.pow 16 (width - 1 - i) % 16)

/-- The value of a digit. -/
def value? (c : Char) : Option Nat :=
  if '0' ≤ c ∧ c ≤ '9' then some (c.toNat - 48)
  else if 'a' ≤ c ∧ c ≤ 'f' then some (c.toNat - 87)
  else if 'A' ≤ c ∧ c ≤ 'F' then some (c.toNat - 55)
  else none

/-- The number that the digits among some characters write. -/
def number (text : List Char) : Nat :=
  (text.filterMap value?).foldl (fun n digit => n * 16 + digit) 0

/-- Two digits for each byte. -/
def encode (bytes : Bytes) : List Char := bytes.flatMap fun byte => digits 2 byte.toNat

/-- The bytes that pairs of digits write. -/
def decode? : List Char → Option Bytes
  | [] => some []
  | high :: low :: rest => do
    return UInt8.ofNat ((← value? high) * 16 + (← value? low)) :: (← decode? rest)
  | [_] => none

end RecordStore.Text.Hex
