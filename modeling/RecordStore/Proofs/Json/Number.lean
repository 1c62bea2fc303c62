import RecordStore.Json.Writer
import RecordStore.Proofs.Json.Reading
import RecordStore.Proofs.Number.Shortest

/-!
# Numbers of JSON texts

A finite double that is written in any notation is read as the same double (`readPlain_write_finite`),
and a whole number as the same whole number, unless it has too many digits (`readPlain_toString`).
-/

namespace RecordStore.Json

/-! ## Digits -/

/-- Leading zeros change no number. -/
theorem ofDigits_replicate_append (zeros : Nat) (digits : List Char) :
    Number.ofDigits (List.replicate zeros '0' ++ digits) = Number.ofDigits digits := by
  rw [ofDigits_eq, ofDigits_eq, Nat.ofDigitChars_append, Nat.ofDigitChars_replicate_zero, Nat.mul_zero]

/-- Zeros at the end multiply by powers of ten. -/
theorem ofDigits_append_replicate (zeros : Nat) (digits : List Char) :
    Number.ofDigits (digits ++ List.replicate zeros '0') = 10 ^ zeros * Number.ofDigits digits := by
  rw [ofDigits_eq, ofDigits_eq, Nat.ofDigitChars_append, Nat.ofDigitChars_replicate_zero]

theorem isDigit_of_mem_replicate {zeros : Nat} : ∀ c ∈ List.replicate zeros '0', c.isDigit := by
  intro c hc
  obtain rfl := List.eq_of_mem_replicate hc
  rfl

/-! ## Decimals -/

variable {d : Dialect} {rest : List Char}

/-- The places behind a point; the point is left out where there are none. -/
def pointed : List Char → List Char
  | [] => []
  | places => '.' :: places

/-- Places are taken up to a character that goes on with none. -/
theorem fractionDigits_append {places : List Char} (hplaces : ∀ c ∈ places, c.isDigit)
    (hend : endsDigits rest) (hpoint : rest.head? ≠ some '.') :
    fractionDigits (pointed places ++ rest) = (places, rest) := by
  cases places with
  | nil => exact fractionDigits_of_head hpoint
  | cons c others =>
    have hsplit := splitDigits_append hplaces hend
    simp only [pointed, List.cons_append, fractionDigits] at hsplit ⊢
    rw [hsplit]
    rfl

theorem endsDigits_pointed {places : List Char} (hend : endsDigits rest) :
    endsDigits (pointed places ++ rest) := by
  cases places with
  | nil => exact hend
  | cons c others => rfl

/-- The texts that hold a decimal with places or an exponent, and then a rest, with the number that
the decimal is. -/
inductive IsDecimal (rest : List Char) : List Char → ℚ → Prop
  | intro {whole places after : List Char} {power : Option Int} (hwhole : IsWhole whole)
    (hplaces : ∀ c ∈ places, c.isDigit) (hend : endsDigits after) (hpoint : after.head? ≠ some '.')
    (hpower : exponent? after = (power, rest)) (hne : ¬(places = [] ∧ power = none)) :
    IsDecimal rest (whole ++ (pointed places ++ after))
      (Number.ofDigits (whole ++ places) * 10 ^ (power.getD 0 - places.length))

/-- A decimal is read as the double next to it. -/
theorem IsDecimal.readNumber_eq {text : List Char} {q : ℚ} (h : IsDecimal rest text q) (start : Nat)
    (negative : Bool) :
    ∃ (digits : Nat) (power : ℤ), (digits : ℚ) * 10 ^ power = q ∧
      readNumber start negative text = .ok (.double (.ofDecimal negative digits power), rest) := by
  obtain ⟨hwhole, hplaces, hend, hpoint, hpower, hne⟩ := h
  refine ⟨_, _, rfl, ?_⟩
  simp only [readNumber, wholeDigits_append hwhole (endsDigits_pointed hend),
    fractionDigits_append hplaces hend hpoint, hpower, hwhole.2.1, hne]
  rfl

/-- A decimal number begins with a digit. -/
theorem IsDecimal.exists_eq {text : List Char} {q : ℚ} (h : IsDecimal rest text q) :
    ∃ c tail, text = c :: tail ∧ c.isDigit := by
  obtain ⟨⟨hdigits, hne, -⟩, -⟩ := h
  obtain ⟨c, others, rfl⟩ := List.exists_cons_of_ne_nil hne
  exact ⟨c, _, rfl, hdigits c List.mem_cons_self⟩

/-! ## The layout of a decimal -/

/-- The digits behind a sign are an exponent. -/
theorem exponent?_append {sign digits : List Char} {negative : Bool}
    (hsign : Number.takeSign (sign ++ (digits ++ rest)) = (negative, digits ++ rest))
    (hdigits : ∀ c ∈ digits, c.isDigit) (hne : digits ≠ []) (hrest : endsDigits rest) :
    exponent? ('e' :: (sign ++ (digits ++ rest))) =
      (some (if negative then -(Number.ofDigits digits : Int) else Number.ofDigits digits), rest) := by
  simp only [exponent?, hsign, splitDigits_append hdigits hrest, hne]
  rfl

/-- Zeros before the digits of a number fill them up. -/
theorem toList_pad (width n : Nat) : ∃ zeros,
    (DoubleNotation.pad width (toString n)).toList = List.replicate zeros '0' ++ Nat.toDigits 10 n := by
  refine ⟨width - (toString n).length, ?_⟩
  have hdigits : (toString n).toList = Nat.toDigits 10 n := Nat.toList_repr
  rw [DoubleNotation.pad, String.toList_append, String.toList_ofList, hdigits]

/-- The exponent of any notation is read. -/
theorem exponent?_layout (style : DoubleNotation) (shown : Int) (hrest : endsDigits rest) :
    exponent? ('e' :: ((if shown < 0 then "-" else if style.plus then "+" else "").toList ++
      ((DoubleNotation.pad style.exponentWidth (toString shown.natAbs)).toList ++ rest))) =
        (some shown, rest) := by
  obtain ⟨zeros, hpad⟩ := toList_pad style.exponentWidth shown.natAbs
  have hdigits : ∀ c ∈ List.replicate zeros '0' ++ Nat.toDigits 10 shown.natAbs, c.isDigit :=
    List.forall_mem_append.mpr ⟨isDigit_of_mem_replicate, isDigit_of_mem_toDigits⟩
  have hne : List.replicate zeros '0' ++ Nat.toDigits 10 shown.natAbs ≠ [] :=
    List.append_ne_nil_of_right_ne_nil _ Nat.toDigits_ne_nil
  have hvalue : Number.ofDigits (List.replicate zeros '0' ++ Nat.toDigits 10 shown.natAbs) =
      shown.natAbs := by
    rw [ofDigits_replicate_append, ofDigits_toDigits]
  rw [hpad]
  -- From here on only their digits and their value are needed.
  generalize List.replicate zeros '0' ++ Nat.toDigits 10 shown.natAbs = digits at *
  split
  · rw [exponent?_append rfl hdigits hne hrest, hvalue]
    have hshown : -(shown.natAbs : Int) = shown := by omega
    rw [if_pos rfl, hshown]
  · have hshown : (shown.natAbs : Int) = shown := by omega
    -- Without a sign the first character is a digit.
    have hunsigned : Number.takeSign (digits ++ rest) = (false, digits ++ rest) := by
      cases digits with
      | nil => exact absurd rfl hne
      | cons c others =>
        have hc : c.isDigit := hdigits c List.mem_cons_self
        rw [List.cons_append, Number.takeSign]
        · rintro tail ⟨⟩
          cases hc
        · rintro tail ⟨⟩
          cases hc
    split
    · rw [exponent?_append rfl hdigits hne hrest, hvalue, if_neg nofun, hshown]
    · rw [exponent?_append hunsigned hdigits hne hrest, hvalue, if_neg nofun, hshown]

theorem pointed_of_ne_nil {places : List Char} (h : places ≠ []) : pointed places = '.' :: places := by
  cases places with
  | nil => exact absurd rfl h
  | cons c others => rfl

/-- A decimal of other digits with the same value. -/
theorem toRat_eq {n : Nat} {power exponent : Int} (h : n = 0 ∨ power = exponent) :
    (n : ℚ) * 10 ^ power = (⟨n, exponent⟩ : Decimal).toRat := by
  obtain rfl | rfl := h
  · rw [Decimal.toRat, Nat.cast_zero, zero_mul, zero_mul]
  · rfl

theorem isWhole_singleton {c : Char} (hc : c.isDigit) : IsWhole [c] := by
  refine ⟨List.forall_mem_singleton.mpr hc, List.cons_ne_nil c [], ?_⟩
  by_cases hzero : c = '0'
  · exact .inl (congrArg (fun c => [c]) hzero)
  · exact .inr fun h => hzero (Option.some.inj h)

theorem IsDecimal.of_eq {text text' : List Char} {q q' : ℚ} (h : IsDecimal rest text q)
    (htext : text' = text) (hq : q = q') : IsDecimal rest text' q' := by
  subst htext hq
  exact h

/-- Digits behind a point and zeros. -/
theorem isDecimal_places (zeros n : Nat) (hrest : endsNumber rest) :
    IsDecimal rest ('0' :: '.' :: (List.replicate zeros '0' ++ Nat.toDigits 10 n ++ rest))
      (n * 10 ^ (-(zeros + (Nat.toDigits 10 n).length) : ℤ)) := by
  have hall : ∀ c ∈ List.replicate zeros '0' ++ Nat.toDigits 10 n, c.isDigit :=
    List.forall_mem_append.mpr ⟨isDigit_of_mem_replicate, isDigit_of_mem_toDigits⟩
  have hne : List.replicate zeros '0' ++ Nat.toDigits 10 n ≠ [] :=
    List.append_ne_nil_of_right_ne_nil _ Nat.toDigits_ne_nil
  have hvalue : Number.ofDigits (['0'] ++ (List.replicate zeros '0' ++ Nat.toDigits 10 n)) = n := by
    have hone : ['0'] = List.replicate 1 '0' := rfl
    rw [hone, ofDigits_replicate_append, ofDigits_replicate_append, ofDigits_toDigits]
  refine (IsDecimal.intro (isWhole_singleton (c := '0') rfl) hall
    (endsDigits_of_endsNumber hrest) (head?_ne_point_of_ends hrest) (exponent?_of_ends hrest)
    fun h => hne h.1).of_eq ?_ ?_
  · rw [pointed_of_ne_nil hne]
    rfl
  · rw [hvalue, List.length_append, List.length_replicate, Option.getD_none, zero_sub, Nat.cast_add]

/-- Digits, zeros and a place with one more zero. -/
theorem isDecimal_zeros (zeros : Nat) {n : Nat} (hn : 0 < n ∨ zeros = 0) (hrest : endsNumber rest) :
    IsDecimal rest (Nat.toDigits 10 n ++ List.replicate zeros '0' ++ ('.' :: '0' :: rest))
      (n * 10 ^ (zeros : ℤ)) := by
  have hwhole : IsWhole (Nat.toDigits 10 n ++ List.replicate zeros '0') := by
    obtain hn | rfl := hn
    · refine ⟨List.forall_mem_append.mpr ⟨isDigit_of_mem_toDigits, isDigit_of_mem_replicate⟩,
        List.append_ne_nil_of_left_ne_nil Nat.toDigits_ne_nil _, .inr ?_⟩
      rw [List.head?_append_of_ne_nil _ Nat.toDigits_ne_nil]
      exact head?_toDigits_ne_zero hn
    · rw [List.replicate_zero, List.append_nil]
      exact isWhole_toDigits n
  -- The zero behind the point is a digit more, for which the exponent makes up.
  have hvalue : Number.ofDigits (Nat.toDigits 10 n ++ List.replicate zeros '0' ++ ['0']) =
      10 ^ (zeros + 1) * n := by
    rw [List.append_assoc, ← List.replicate_succ', ofDigits_append_replicate, ofDigits_toDigits]
  have hplace : ∀ c ∈ ['0'], c.isDigit := List.forall_mem_singleton.mpr rfl
  refine (IsDecimal.intro hwhole hplace
    (endsDigits_of_endsNumber hrest) (head?_ne_point_of_ends hrest) (exponent?_of_ends hrest)
    fun h => List.cons_ne_nil _ _ h.1).of_eq rfl ?_
  rw [hvalue, Option.getD_none, List.length_singleton, Nat.cast_mul, Nat.cast_pow, Nat.cast_ofNat,
    pow_succ, zpow_natCast]
  norm_num
  ring

/-- Digits on both sides of a point. -/
theorem isDecimal_split {n k : Nat} (hpositive : 0 < k) (hk : k < (Nat.toDigits 10 n).length)
    (hn : 0 < n) (hrest : endsNumber rest) :
    IsDecimal rest ((Nat.toDigits 10 n).take k ++ ('.' :: ((Nat.toDigits 10 n).drop k ++ rest)))
      (n * 10 ^ (k - (Nat.toDigits 10 n).length : ℤ)) := by
  have hwhole : IsWhole ((Nat.toDigits 10 n).take k) := by
    refine ⟨fun c hc => isDigit_of_mem_toDigits c (List.mem_of_mem_take hc), ?_, .inr ?_⟩
    · exact fun h => by simp [Nat.ne_of_gt hpositive, Nat.toDigits_ne_nil] at h
    · rw [List.head?_take, if_neg (Nat.ne_of_gt hpositive)]
      exact head?_toDigits_ne_zero hn
  -- Behind the point there is at least one digit.
  have hne : (Nat.toDigits 10 n).drop k ≠ [] := fun h => by
    have hlength := List.drop_eq_nil_iff.mp h
    omega
  have hvalue : Number.ofDigits ((Nat.toDigits 10 n).take k ++ (Nat.toDigits 10 n).drop k) = n := by
    rw [List.take_append_drop, ofDigits_toDigits]
  refine (IsDecimal.intro hwhole (fun c hc => isDigit_of_mem_toDigits c (List.mem_of_mem_drop hc))
    (endsDigits_of_endsNumber hrest) (head?_ne_point_of_ends hrest) (exponent?_of_ends hrest)
    fun h => hne h.1).of_eq ?_ ?_
  · rw [pointed_of_ne_nil hne, List.cons_append]
  · rw [hvalue, Option.getD_none, List.length_drop, zero_sub, Nat.cast_sub hk.le, neg_sub]

/-- One digit, the others behind a point, and an exponent. -/
theorem isDecimal_exponent {n : Nat} {c : Char} {others : List Char} (hn : Nat.toDigits 10 n = c :: others)
    {shown : Int} {after : List Char} (hafter : exponent? ('e' :: after) = (some shown, rest)) :
    IsDecimal rest (c :: (pointed others ++ 'e' :: after)) (n * 10 ^ (shown - others.length)) := by
  have hvalue := ofDigits_toDigits n
  have hall := isDigit_of_mem_toDigits (n := n)
  rw [hn] at hvalue hall
  obtain ⟨hc, hothers⟩ := List.forall_mem_cons.mp hall
  refine (IsDecimal.intro (isWhole_singleton hc) hothers rfl ?_ hafter
    fun h => Option.some_ne_none _ h.2).of_eq rfl ?_
  · exact fun h => absurd (Option.some.inj h) (by decide)
  · rw [List.singleton_append, hvalue, Option.getD_some]

/-- The layout of a decimal holds the decimal. -/
theorem isDecimal_layout (style : DoubleNotation) (dec : Decimal) (hrest : endsNumber rest) :
    IsDecimal rest ((style.layout dec).toList ++ rest) dec.toRat := by
  obtain ⟨n, exponent⟩ := dec
  have hdigits : (toString n).toList = Nat.toDigits 10 n := Nat.toList_repr
  have hpositive : 0 < (Nat.toDigits 10 n).length := Nat.length_toDigits_pos
  unfold DoubleNotation.layout
  extract_lets digits count point shown sign lead
  have hcount : count = (Nat.toDigits 10 n).length := congrArg List.length hdigits
  have hzero : n = 0 → (Nat.toDigits 10 n).length = 1 := by
    rintro rfl
    rfl
  -- The point stands behind a zero, and else where the digits and the exponent put it.
  have hplace : n = 0 ∧ point = 1 ∨ 0 < n ∧ point = count + exponent := by
    by_cases hn : n = 0
    · exact .inl ⟨hn, if_pos hn⟩
    · exact .inr ⟨Nat.pos_of_ne_zero hn, if_neg hn⟩
  have hdigits' : digits = Nat.toDigits 10 n := hdigits
  have hshown : shown = point - 1 := rfl
  have hafter := exponent?_layout style shown (endsDigits_of_endsNumber hrest)
  -- Three ways to write a number without an exponent, by where the point stands, and one with it.
  clear_value digits count point
  subst hdigits' hcount
  split
  · split
    · refine (isDecimal_places point.natAbs n hrest).of_eq ?_ (toRat_eq ?_)
      · simp
      · omega
    · split
      · refine (isDecimal_zeros (point.toNat - (Nat.toDigits 10 n).length) (n := n) ?_ hrest).of_eq ?_
          (toRat_eq ?_)
        · omega
        · simp
        · omega
      · refine (isDecimal_split (n := n) (k := point.toNat) ?_ ?_ ?_ hrest).of_eq ?_ (toRat_eq ?_)
        · omega
        · omega
        · omega
        · simp
        · omega
  · obtain ⟨c, others, hn, -⟩ := exists_toDigits_eq n
    have hlead : lead.toList = c :: pointed others := by
      simp only [lead, hn]
      cases others <;> exact String.toList_ofList
    rw [hn, List.length_cons] at hzero hplace
    refine (isDecimal_exponent hn hafter).of_eq ?_ (toRat_eq ?_)
    · simp [hlead, sign]
    · omega

/-! ## Numbers as they are written -/

/-- A decimal is read as the double for which it is written, with either sign. -/
theorem IsDecimal.readPlain_eq {exponent : Fin 2047} {fraction : Fin 4503599627370496} {text : List Char}
    (h : IsDecimal rest text (Double.shortest exponent fraction).toRat) :
    readPlain text = .ok (.double (.finite false exponent fraction), rest) ∧
      readPlain ('-' :: text) = .ok (.double (.finite true exponent fraction), rest) := by
  obtain ⟨c, tail, rfl, hc⟩ := h.exists_eq
  constructor
  · obtain ⟨digits, power, hvalue, hread⟩ := h.readNumber_eq (tail.length + 1) false
    rw [readPlain_of_digit hc, hread, Double.ofDecimal_of_toRat_eq hvalue]
  · obtain ⟨digits, power, hvalue, hread⟩ := h.readNumber_eq (tail.length + 2) true
    rw [readPlain_of_minus hc, hread, Double.ofDecimal_of_toRat_eq hvalue]

/-- The layout of a decimal begins with a digit. -/
theorem exists_layout_eq (style : DoubleNotation) (dec : Decimal) :
    ∃ c tail, (style.layout dec).toList = c :: tail ∧ c.isDigit := by
  obtain ⟨c, tail, htext, hc⟩ := (isDecimal_layout style dec Json.endsNumber_nil).exists_eq
  exact ⟨c, tail, (List.append_nil _).symm.trans htext, hc⟩

/-- The text of a finite double begins like a number, in any notation. -/
theorem exists_write_finite_eq (style : DoubleNotation) (negative : Bool) (exponent : Fin 2047)
    (fraction : Fin 4503599627370496) : ∃ c tail,
      (style.write (.finite negative exponent fraction)).toList = c :: tail ∧ beginsPlain c := by
  obtain ⟨c, tail, htext, hc⟩ := exists_layout_eq style (Double.shortest exponent fraction)
  rw [DoubleNotation.write, String.toList_append, htext]
  cases negative with
  | false => exact ⟨c, tail, rfl, beginsPlain_of_isDigit hc⟩
  | true => exact ⟨'-', c :: tail, rfl, rfl⟩

/-- A finite double is read as it was written. -/
theorem readPlain_write_finite (style : DoubleNotation) (negative : Bool) (exponent : Fin 2047)
    (fraction : Fin 4503599627370496) (hrest : endsNumber rest) :
    readPlain ((style.write (.finite negative exponent fraction)).toList ++ rest) =
      .ok (.double (.finite negative exponent fraction), rest) := by
  have hread := (isDecimal_layout style (Double.shortest exponent fraction) hrest).readPlain_eq
  cases negative with
  | false => simpa [DoubleNotation.write] using hread.1
  | true => simpa [DoubleNotation.write] using hread.2

/-- The digits of a whole number, behind a minus if it is negative. -/
theorem toList_toString_int (n : Int) :
    (toString n).toList = (if n < 0 then ['-'] else []) ++ Nat.toDigits 10 n.natAbs := by
  cases n with
  | ofNat m =>
    have hsign : ¬Int.ofNat m < 0 := Int.not_lt.mpr (Int.natCast_nonneg m)
    rw [if_neg hsign]
    exact Nat.toList_repr
  | negSucc m =>
    have hminus : (toString (Int.negSucc m)).toList = ("-" ++ (m + 1).repr).toList := rfl
    rw [if_pos (Int.negSucc_lt_zero m), hminus, String.toList_append, Nat.toList_repr]
    rfl

/-- A whole number is read as it was written, unless it has too many digits. -/
theorem readPlain_toString (n : Int) (hrest : endsNumber rest) :
    (readPlain ((toString n).toList ++ rest)).toOption =
      if Number.maxDigits < (Nat.toDigits 10 n.natAbs).length then none
      else some (.integer n, rest) := by
  obtain ⟨c, others, hn, hc, -⟩ := exists_toDigits_eq n.natAbs
  have hread (start : Nat) (negative : Bool) :=
    readNumber_toDigits n.natAbs start negative hrest
  rw [toList_toString_int, List.append_assoc]
  rw [hn] at hread ⊢
  -- The sign stands before the digits, and is read apart from them.
  by_cases hnegative : n < 0
  · have hsign : -(n.natAbs : Int) = n := by omega
    rw [if_pos hnegative, List.singleton_append, List.cons_append, readPlain_of_minus hc,
      ← List.cons_append, hread, apply_ite Except.toOption]
    simp only [if_true, hsign]
    rfl
  · have hsign : (n.natAbs : Int) = n := by omega
    rw [if_neg hnegative, List.nil_append, List.cons_append, readPlain_of_digit hc,
      ← List.cons_append, hread, apply_ite Except.toOption]
    simp only [Bool.false_eq_true, if_false, hsign]
    rfl

end RecordStore.Json
