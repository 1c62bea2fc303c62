import RecordStore.Text.Base64

/-!
# Base 64 reads what it writes

`decode?_encode`: reading the text of some bytes, taken over to the common alphabet, gives the bytes
again, in a strict and in a lenient reading. The characters of a group are read one after
the other (`decodeFrom_first` and those after it), and the induction follows the groups of `encode`.
-/

namespace RecordStore.Text.Base64

/-- The characters of the common alphabet are read as the bits that they are written for. -/
theorem value?_common_digit : ∀ n < 64, value? (common (digit n)) = some n := by
  decide

/-- No character of the alphabet is taken for padding. -/
theorem common_digit_ne_pad : ∀ n < 64, common (digit n) ≠ '=' := by
  decide

/-- The characters of the alphabet are ASCII. -/
theorem digit_ascii : ∀ n < 64, (digit n).toNat < 128 := by
  decide

variable {strict : Bool} {bits : Nat} {rest : List Char}

/-- The first character of a group. -/
theorem decodeFrom_first (h : bits < 64) :
    decodeFrom strict 0 0 0 (common (digit bits) :: rest) = decodeFrom strict 1 bits 0 rest := by
  rw [decodeFrom, if_neg (common_digit_ne_pad bits h), value?_common_digit bits h]
  simp

/-- The second character of a group completes a byte. -/
theorem decodeFrom_second (h : bits < 64) (left : Nat) :
    decodeFrom strict 1 left 0 (common (digit bits) :: rest) =
      (UInt8.ofNat (left * 4 + bits / 16) :: ·) <$> decodeFrom strict 2 (bits % 16) 0 rest := by
  rw [decodeFrom, if_neg (common_digit_ne_pad bits h), value?_common_digit bits h]
  simp

/-- The third character of a group completes a byte. -/
theorem decodeFrom_third (h : bits < 64) (left : Nat) :
    decodeFrom strict 2 left 0 (common (digit bits) :: rest) =
      (UInt8.ofNat (left * 16 + bits / 4) :: ·) <$> decodeFrom strict 3 (bits % 4) 0 rest := by
  rw [decodeFrom, if_neg (common_digit_ne_pad bits h), value?_common_digit bits h]
  simp

/-- The fourth character of a group completes a byte. -/
theorem decodeFrom_fourth (h : bits < 64) (left : Nat) :
    decodeFrom strict 3 left 0 (common (digit bits) :: rest) =
      (UInt8.ofNat (left * 64 + bits) :: ·) <$> decodeFrom strict 0 0 0 rest := by
  rw [decodeFrom, if_neg (common_digit_ne_pad bits h), value?_common_digit bits h]
  simp

/-- A byte is known by its number. -/
theorem ofNat_eq_of_toNat {n : Nat} (byte : UInt8) (h : n = byte.toNat) : UInt8.ofNat n = byte := by
  rw [h, UInt8.ofNat_toNat]

/-- Reading the groups of some bytes gives the bytes. -/
theorem decodeFrom_encode (strict : Bool) (bytes : Bytes) :
    decodeFrom strict 0 0 0 ((encode bytes).map common) = some bytes := by
  -- Three bytes are four digits; what is left over at the end is padded.
  induction bytes using encode.induct with
  | case1 => rfl
  | case2 a =>
    have ha := a.toNat_lt
    simp only [encode, List.map_cons, List.map_nil]
    rw [decodeFrom_first (by omega), decodeFrom_second (by omega),
      ofNat_eq_of_toNat a (by omega)]
    simp [decodeFrom, common]
  | case3 a b =>
    have ha := a.toNat_lt
    have hb := b.toNat_lt
    simp only [encode, List.map_cons, List.map_nil]
    rw [decodeFrom_first (by omega), decodeFrom_second (by omega), decodeFrom_third (by omega),
      ofNat_eq_of_toNat a (by omega), ofNat_eq_of_toNat b (by omega)]
    simp [decodeFrom, common]
  | case4 a b c rest ih =>
    have ha := a.toNat_lt
    have hb := b.toNat_lt
    have hc := c.toNat_lt
    simp only [encode, List.map_cons]
    rw [decodeFrom_first (by omega), decodeFrom_second (by omega), decodeFrom_third (by omega),
      decodeFrom_fourth (by omega), ih, ofNat_eq_of_toNat a (by omega),
      ofNat_eq_of_toNat b (by omega), ofNat_eq_of_toNat c (by omega)]
    rfl

/-- The text of some bytes begins with no padding. -/
theorem head?_encode_ne_pad (bytes : Bytes) :
    ((encode bytes).map common).head? ≠ some '=' := by
  have hfirst (byte : UInt8) : common (digit (byte.toNat / 4)) ≠ '=' :=
    common_digit_ne_pad _ (by have := byte.toNat_lt; omega)
  cases bytes using encode.fun_cases with
  | case1 => simp [encode]
  | case2 a => simpa [encode] using hfirst a
  | case3 a b => simpa [encode] using hfirst a
  | case4 a b c rest => simpa [encode] using hfirst a

/-- Reading the text of some bytes gives the bytes. -/
theorem decode?_encode (strict : Bool) (bytes : Bytes) :
    decode? strict ((encode bytes).map common) = some bytes := by
  rw [decode?, if_neg fun h => head?_encode_ne_pad bytes h.2, decodeFrom_encode]

/-- The text of some bytes consists of the alphabet and of padding. -/
theorem forall_mem_encode {P : Char → Prop} (hdigit : ∀ n < 64, P (digit n)) (hpad : P '=')
    (bytes : Bytes) : ∀ c ∈ encode bytes, P c := by
  induction bytes using encode.induct with
  | case1 => simp [encode]
  | case2 a =>
    have ha := a.toNat_lt
    simp only [encode, List.forall_mem_cons]
    exact ⟨hdigit _ (by omega), hdigit _ (by omega), hpad, hpad, nofun⟩
  | case3 a b =>
    have ha := a.toNat_lt
    have hb := b.toNat_lt
    simp only [encode, List.forall_mem_cons]
    exact ⟨hdigit _ (by omega), hdigit _ (by omega), hdigit _ (by omega), hpad, nofun⟩
  | case4 a b c rest ih =>
    have ha := a.toNat_lt
    have hb := b.toNat_lt
    have hc := c.toNat_lt
    simp only [encode, List.forall_mem_cons]
    exact ⟨hdigit _ (by omega), hdigit _ (by omega), hdigit _ (by omega), hdigit _ (by omega), ih⟩

/-- The text of some bytes is ASCII. -/
theorem encode_ascii : ∀ bytes, ∀ c ∈ encode bytes, c.toNat < 128 :=
  forall_mem_encode digit_ascii (by decide)

/-- Whether a character belongs to the alphabet that is safe in addresses, or pads. -/
def isAddressChar (c : Char) : Bool := c.isAlphanum || c == '-' || c == '_' || c == '='

/-- The text of some bytes is safe in addresses. -/
theorem encode_address : ∀ bytes, ∀ c ∈ encode bytes, isAddressChar c :=
  forall_mem_encode (by decide) rfl

end RecordStore.Text.Base64
