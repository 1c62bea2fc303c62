import RecordStore.Json.Reader

/-!
# Reading plain JSON texts

What the reader makes of the parts of a text that need no escapes. A plain character of a string
stands for itself (`readString_plain`), and the decimal digits of a natural number are read as that
number (`readNumber_toDigits`), as far as the reader takes so many digits and what follows them does
not go on with the number.
-/

namespace RecordStore.Json

/-! ## Strings -/

/-- A quotation mark ends a string. -/
theorem readString_quote (d : Dialect) (start : Nat) (rest : List Char) :
    readString d start ('"' :: rest) = .ok ([], rest) := by
  rw [readString]

/-- A plain character of a string stands for itself. -/
theorem readString_plain (d : Dialect) (start : Nat) {c : Char} (hquote : c ≠ '"')
    (hescape : c ≠ '\\') (hcontrol : ¬c.toNat < 0x20) {rest chars tail : List Char}
    (hrest : readString d start rest = .ok (chars, tail)) :
    readString d start (c :: rest) = .ok (c :: chars, tail) := by
  rw [readString, if_neg hcontrol, hrest]
  · rfl
  · exact hquote
  · exact fun _ h => absurd h hescape
  · exact fun h => absurd h hescape
  · exact fun _ _ h => absurd h hescape

/-! ## Whole numbers -/

/-- The digits of a positive number do not begin with a zero. -/
theorem head?_toDigits_ne_zero {n : Nat} (h : 0 < n) : (Nat.toDigits 10 n).head? ≠ some '0' := by
  induction n using Nat.strongRecOn with
  | ind n ih =>
    rw [Nat.toDigits_eq_if (by decide)]
    split
    · next hlt =>
      have hdigit : ∀ n < 10, 0 < n → Nat.digitChar n ≠ '0' := by decide
      simpa using hdigit n hlt h
    · next hle =>
      have hfirst := ih (n / 10) (by omega) (by omega)
      cases hdigits : Nat.toDigits 10 (n / 10) with
      | nil => exact absurd hdigits Nat.toDigits_ne_nil
      | cons c others =>
        rw [hdigits] at hfirst
        exact hfirst

/-- The number of some digits, by the digits of the library. -/
theorem ofDigits_eq (digits : List Char) : Number.ofDigits digits = Nat.ofDigitChars 10 digits 0 := by
  have hsame : (fun (m : Nat) (c : Char) => m * 10 + (c.toNat - 48)) =
      fun m c => 10 * m + (c.toNat - '0'.toNat) := by
    funext m c
    rw [Nat.mul_comm]
    rfl
  rw [Number.ofDigits, hsame, ← Nat.ofDigitChars_eq_foldl]

/-- The number of the digits of a number is that number. -/
theorem ofDigits_toDigits (n : Nat) : Number.ofDigits (Nat.toDigits 10 n) = n := by
  rw [ofDigits_eq]
  exact Nat.ofDigitChars_ten_toDigits

/-- Whole numbers are written with digits. -/
theorem isDigit_of_mem_toDigits {n : Nat} : ∀ c ∈ Nat.toDigits 10 n, c.isDigit := fun _ hc =>
  Nat.isDigit_of_mem_toDigits (by decide) (by decide) hc

/-- The digits of a number begin with a digit. -/
theorem exists_toDigits_eq (n : Nat) :
    ∃ c others, Nat.toDigits 10 n = c :: others ∧ c.isDigit ∧ ∀ c ∈ others, c.isDigit := by
  cases hn : Nat.toDigits 10 n with
  | nil => exact absurd hn Nat.toDigits_ne_nil
  | cons c others =>
    have hdigits := isDigit_of_mem_toDigits (n := n)
    rw [hn] at hdigits
    exact ⟨c, others, rfl, List.forall_mem_cons.mp hdigits⟩

/-- Whether a text does not go on with the digits that stand before it. -/
def endsDigits (rest : List Char) : Bool := rest.head?.all fun c => !c.isDigit

/-- Whether a text does not go on with the number that stands before it. -/
def endsNumber (rest : List Char) : Bool :=
  rest.head?.all fun c => !c.isDigit && c != '.' && c != 'e' && c != 'E'

variable {d : Dialect} {rest : List Char}

theorem endsNumber_nil : endsNumber [] := rfl

theorem endsDigits_of_endsNumber (h : endsNumber rest) : endsDigits rest := by
  cases rest with
  | nil => rfl
  | cons c tail =>
    simp only [endsNumber, List.head?_cons, Option.all_some, Bool.and_eq_true] at h
    exact h.1.1.1

/-- The digits before the end of a run of digits are taken. -/
theorem splitDigits_append {digits : List Char} (hdigits : ∀ c ∈ digits, c.isDigit)
    (hrest : endsDigits rest) : splitDigits (digits ++ rest) = (digits, rest) := by
  have hnone : rest.takeWhile Char.isDigit = [] ∧ rest.dropWhile Char.isDigit = rest := by
    cases rest with
    | nil => exact ⟨rfl, rfl⟩
    | cons c tail =>
      have hc : c.isDigit = false := by
        simpa only [endsDigits, List.head?_cons, Option.all_some, Bool.not_eq_true'] using hrest
      simp [hc]
  rw [splitDigits, List.takeWhile_append_of_pos hdigits, List.dropWhile_append_of_pos hdigits,
    hnone.1, hnone.2, List.append_nil]

/-- Whether some digits are a whole number: a lone zero, or digits that do not begin with one. -/
def IsWhole (digits : List Char) : Prop :=
  (∀ c ∈ digits, c.isDigit) ∧ digits ≠ [] ∧ (digits = ['0'] ∨ digits.head? ≠ some '0')

/-- The digits of a number are a whole number. -/
theorem isWhole_toDigits (n : Nat) : IsWhole (Nat.toDigits 10 n) := by
  refine ⟨isDigit_of_mem_toDigits, Nat.toDigits_ne_nil, ?_⟩
  obtain rfl | hpositive := Nat.eq_zero_or_pos n
  · exact .inl rfl
  · exact .inr (head?_toDigits_ne_zero hpositive)

/-- All digits of a whole number are taken, and what follows them is left. -/
theorem wholeDigits_append {digits : List Char} (hdigits : IsWhole digits) (hrest : endsDigits rest) :
    wholeDigits (digits ++ rest) = (digits, rest) := by
  obtain ⟨hall, hne, rfl | hfirst⟩ := hdigits
  · rfl
  · rw [← splitDigits_append hall hrest, wholeDigits]
    rintro tail hzero
    cases digits with
    | nil => exact hne rfl
    | cons c others => exact hfirst (congrArg List.head? hzero)

/-- Without a point there are no places. -/
theorem fractionDigits_of_head (h : rest.head? ≠ some '.') : fractionDigits rest = ([], rest) := by
  rw [fractionDigits]
  rintro tail rfl
  exact h rfl

/-- At the end of a number there is no exponent. -/
theorem exponent?_of_ends (h : endsNumber rest) : exponent? rest = (none, rest) := by
  cases rest with
  | nil => rfl
  | cons c tail =>
    simp only [endsNumber, List.head?_cons, Option.all_some, Bool.and_eq_true, bne_iff_ne] at h
    rw [exponent?, if_neg (not_or.mpr ⟨h.1.2, h.2⟩)]

theorem head?_ne_point_of_ends (h : endsNumber rest) : rest.head? ≠ some '.' := by
  cases rest with
  | nil => exact nofun
  | cons c tail =>
    rintro ⟨⟩
    cases h

/-- The digits of a number are read as the number, unless there are too many of them. -/
theorem readNumber_toDigits (n start : Nat) (negative : Bool) (hrest : endsNumber rest) :
    readNumber start negative (Nat.toDigits 10 n ++ rest) =
      if Number.maxDigits < (Nat.toDigits 10 n).length then
        .error ⟨.tooManyDigits (Nat.toDigits 10 n).length, start⟩
      else .ok (.integer (if negative then -(n : Int) else n), rest) := by
  simp only [readNumber, wholeDigits_append (isWhole_toDigits n) (endsDigits_of_endsNumber hrest),
    fractionDigits_of_head (head?_ne_point_of_ends hrest), exponent?_of_ends hrest,
    ofDigits_toDigits, Nat.toDigits_ne_nil]
  rfl

/-! ## Words and numbers -/

/-- A text that begins with a digit holds no word. -/
theorem readPlain_of_digit {c : Char} (hc : c.isDigit) :
    readPlain (c :: rest) = readNumber (rest.length + 1) false (c :: rest) := by
  have hne {other : Char} (hother : other.isDigit = false) : other ≠ c := by
    rintro rfl
    rw [hc] at hother
    cases hother
  have hwords : words.find? (fun word => word.1.isPrefixOf (c :: rest)) = none := by
    rw [List.find?_eq_none]
    simp only [words, List.forall_mem_cons]
    simp [List.isPrefixOf, hne]
  rw [readPlain, hwords]
  · rfl
  · rintro tail ⟨⟩
    cases hc

/-- A minus before a digit is a sign. -/
theorem readPlain_of_minus {c : Char} (hc : c.isDigit) :
    readPlain ('-' :: c :: rest) = readNumber (rest.length + 2) true (c :: rest) := by
  have hne : 'I' ≠ c := by
    rintro rfl
    cases hc
  have hwords : words.find? (fun word => word.1.isPrefixOf ('-' :: c :: rest)) = none := by
    rw [List.find?_eq_none]
    simp only [words, List.forall_mem_cons]
    simp [List.isPrefixOf, hne]
  rw [readPlain, hwords]
  rfl

/-- Whether a character may begin a word or a number. -/
def beginsPlain (c : Char) : Bool := c.isAlphanum || c == '-'

theorem beginsPlain_of_isDigit {c : Char} (hc : c.isDigit) : beginsPlain c := by
  simp [beginsPlain, Char.isAlphanum, hc]

/-- A text that begins like a word or a number holds one. -/
theorem readValue_of_beginsPlain {c : Char} (hc : beginsPlain c) (fuel levels : Nat) :
    readValue d (fuel + 1) levels (c :: rest) = readPlain (c :: rest) := by
  rw [readValue]
  · rintro tail ⟨⟩
    cases hc
  · rintro tail ⟨⟩
    cases hc
  · rintro tail ⟨⟩
    cases hc

end RecordStore.Json
