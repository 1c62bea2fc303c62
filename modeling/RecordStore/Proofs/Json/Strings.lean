import RecordStore.Json.Writer
import RecordStore.Proofs.Json.Reading

/-!
# Strings of JSON texts

A string that is written with characters beyond ASCII as they are is read as the same string
(`readString_flatMap`): each character is read of its escape (`readString_escapeChar`).
-/

namespace RecordStore.Json

/-- A digit of base sixteen has its own value. -/
theorem value?_digit : ∀ n < 16, Text.Hex.value? (Text.Hex.digit n) = some n := by decide

/-- Four digits of base sixteen before anything else are read as their number. -/
theorem readUnit?_digits {n : Nat} (hn : n < 65536) {rest : List Char} (hrest : rest ≠ []) :
    readUnit? (Text.Hex.digits 4 n ++ rest) = some n := by
  have hdigits : Text.Hex.digits 4 n = [Text.Hex.digit (n / 4096 % 16), Text.Hex.digit (n / 256 % 16),
      Text.Hex.digit (n / 16 % 16), Text.Hex.digit (n / 1 % 16)] := rfl
  have hlength : 4 < (Text.Hex.digits 4 n ++ rest).length := by
    have hpositive := List.length_pos_iff.mpr hrest
    rw [hdigits, List.length_append]
    exact Nat.lt_add_of_pos_right hpositive
  have hvalue (m : Nat) := value?_digit (m % 16) (Nat.mod_lt m (by decide))
  rw [readUnit?, if_pos hlength, hdigits]
  simp only [List.cons_append, List.take_succ_cons, List.take_zero, List.foldl_cons, List.foldl_nil,
    hvalue, bind, Option.bind, pure]
  refine congrArg some ?_
  omega

variable {d : Dialect} {start : Nat} {rest chars tail : List Char}

/-- An escape of one letter. -/
theorem readString_escape {c plain : Char} (hu : c ≠ 'u') (hplain : unescape? c = some plain)
    (h : readString d start rest = .ok (chars, tail)) :
    readString d start ('\\' :: c :: rest) = .ok (plain :: chars, tail) := by
  rw [readString, hplain]
  · simp only [h]
    rfl
  · exact fun hc => hu hc

/-- An escape by the number of a unit that is no half of a pair. -/
theorem readString_unitEscape {n : Nat} (hn : n < 0xd800)
    (h : readString d start rest = .ok (chars, tail)) :
    readString d start (unitEscape n ++ rest) = .ok (Char.ofNat n :: chars, tail) := by
  have hne : rest ≠ [] := by
    rintro rfl
    rw [readString] at h
    cases h
  -- Below the surrogates a unit is a character by itself.
  have hhigh : isHigh n = false := by
    rw [isHigh, Bool.and_eq_false_imp]
    exact fun hle => absurd (of_decide_eq_true hle) (by omega)
  have hlow : isLow n = false := by
    rw [isLow, Bool.and_eq_false_imp]
    exact fun hle => absurd (of_decide_eq_true hle) (by omega)
  have hchar : unitChar? d n = some (Char.ofNat n) := by
    rw [unitChar?, hhigh, hlow]
    rfl
  have hafter : (Text.Hex.digits 4 n ++ rest).drop 4 = rest := rfl
  rw [unitEscape, List.cons_append, List.cons_append, readString, readUnit?_digits (by omega) hne]
  simp only [hhigh, hafter, hchar, h, Bool.false_eq_true, false_and, if_false]
  rfl

/-- A character is read of its escape. -/
theorem readString_escapeChar (c : Char) (h : readString d start rest = .ok (chars, tail)) :
    readString d start (escapeChar false c ++ rest) = .ok (c :: chars, tail) := by
  have hnumber {n : Nat} (hn : c.toNat = n) : Char.ofNat n = c := hn ▸ Char.ofNat_toNat c
  rw [escapeChar]
  -- The writer tries the escapes in this order, and the reader undoes each.
  by_cases hquoted : c = '"' ∨ c = '\\'
  · rw [if_pos hquoted]
    obtain rfl | rfl := hquoted <;> exact readString_escape (by decide) rfl h
  by_cases hletter : c = '\n' ∨ c = '\r' ∨ c = '\t'
  · obtain rfl | rfl | rfl := hletter <;> exact readString_escape (by decide) rfl h
  obtain ⟨hline, hreturn, htab⟩ := not_or.mp hletter |>.imp_right not_or.mp
  rw [if_neg hquoted, if_neg hline, if_neg hreturn, if_neg htab]
  split
  · next hback =>
    rw [← hnumber hback]
    exact readString_escape (by decide) rfl h
  split
  · next hfeed =>
    rw [← hnumber hfeed]
    exact readString_escape (by decide) rfl h
  split
  · have hread := readString_unitEscape (n := c.toNat) (by omega) h
    rw [Char.ofNat_toNat] at hread
    exact hread
  · next hcontrol =>
    obtain ⟨hquote, hescape⟩ := not_or.mp hquoted
    exact readString_plain d start hquote hescape hcontrol h

/-- A string is read as it was written. -/
theorem readString_flatMap (text : List Char) :
    readString d start (text.flatMap (escapeChar false) ++ '"' :: rest) = .ok (text, rest) := by
  induction text with
  | nil => exact readString_quote ..
  | cons c text ih =>
    rw [List.flatMap_cons, List.append_assoc]
    exact readString_escapeChar c ih

/-- A written string begins and ends with a quote. -/
theorem writeString_append {style : Style} (hascii : style.ascii = false) (s : String)
    (rest : List Char) :
    writeString style s ++ rest = '"' :: (s.toList.flatMap (escapeChar false) ++ '"' :: rest) := by
  rw [writeString, hascii, List.append_assoc]
  rfl

end RecordStore.Json
