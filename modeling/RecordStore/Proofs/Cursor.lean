import Mathlib.Algebra.Group.Nat.Defs
import RecordStore.Cursor
import RecordStore.Proofs.Json.RoundTrip
import RecordStore.Proofs.Text.Base64
import RecordStore.Proofs.Text.Utf8

/-!
# Cursors point where they were set

The cursor of an offset points at that offset (`toOffset_ofOffset`), as far as its digits may be
read as a whole number, and never at another one (`eq_of_toOffset_ofOffset`). Each layer of the text
is taken off by the lemma about it: base 64, the bytes, and the JSON object.
-/

namespace RecordStore.Cursor

variable {levels : Nat}

/-- A number that is itself no larger than the number of digits which may be read. -/
theorem lt_of_le_maxDigits {n : Nat} (h : n ≤ Number.maxDigits) : n < 10 ^ Number.maxDigits :=
  Nat.lt_of_le_of_lt h (Nat.lt_pow_self (by decide))

/-- The characters of the object that holds an offset. -/
def objectText (n : Nat) : List Char :=
  '\x7b' :: '"' :: 'o' :: '"' :: ':' :: (Nat.toDigits 10 n ++ ['\x7d'])

/-- The object of an offset is ASCII, so that its text is the same in every style. -/
theorem writeOnto_offset (ascii : Bool) (n : Nat) :
    Json.writeOnto ⟨ascii, Json.plainDoubles⟩ [] (.object [("o", .integer n)]) = objectText n := by
  have hdigits : (toString (n : Int)).toList = Nat.toDigits 10 n := Nat.toList_repr
  have hname : Json.writeString ⟨ascii, Json.plainDoubles⟩ "o" = ['"', 'o', '"'] := by
    cases ascii <;> rfl
  rw [Json.writeOnto, hname, Json.writeOnto, Json.writeMembers, hdigits]
  rfl

/-- The object is written in ASCII without a zero character. -/
theorem objectText_ascii (n : Nat) : ∀ c ∈ objectText n, 0 < c.toNat ∧ c.toNat < 128 := by
  have hdigits : ∀ c ∈ Nat.toDigits 10 n, 0 < c.toNat ∧ c.toNat < 128 := by
    intro c hc
    have hdigit : c.isDigit := Nat.isDigit_of_mem_toDigits (by decide) (by decide) hc
    obtain ⟨hlow, hhigh⟩ := Char.isDigit_iff_toNat.mp hdigit
    exact ⟨Nat.lt_of_lt_of_le (by decide) hlow, Nat.lt_of_le_of_lt hhigh (by decide)⟩
  simp only [objectText, List.forall_mem_cons, List.forall_mem_append]
  exact ⟨by decide, by decide, by decide, by decide, by decide, hdigits, by decide, nofun⟩

/-- The object is read as it was written, unless its number has too many digits. -/
theorem toOption_read_objectText (levels n : Nat) :
    (Json.read (String.ofList (objectText n)) levels).toOption =
      if Number.maxDigits < (Nat.toDigits 10 n).length then none
      else some (.object [("o", .integer n)]) := by
  have hnumber (left : Nat) : Json.reread? (.lenient levels) .double left (.integer n) =
      if Number.maxDigits < (Nat.toDigits 10 n).length then none else some (.integer n) := rfl
  have hread := Json.readChars_writeOnto (Json.rereads_plain (.lenient levels)) (.object [("o", .integer n)])
  rw [Json.plain, writeOnto_offset] at hread
  rw [Json.toOption_read, String.toList_ofList, hread]
  change Option.map Json.object (Json.reread? (.lenient levels) .double _ (.integer n) >>= _) = _
  rw [hnumber]
  split <;> rfl

/-- The object that holds an offset holds it still when it has been read. -/
theorem offsetOfText?_objectText {n : Nat} (h : (Nat.toDigits 10 n).length ≤ Number.maxDigits) :
    offsetOfText? levels (String.ofList (objectText n)) = .ok (some n) := by
  have hread := toOption_read_objectText levels n
  rw [if_neg (Nat.not_lt.mpr h)] at hread
  rw [offsetOfText?, Result.toOption_eq_some.mp hread]
  simp [Json.get?, Json.integer?]

/-- From the object that holds an offset, no other offset is read. -/
theorem eq_of_offsetOfText?_objectText {n m : Nat}
    (h : offsetOfText? levels (String.ofList (objectText n)) = .ok (some m)) : m = n := by
  by_cases hshort : (Nat.toDigits 10 n).length ≤ Number.maxDigits
  · rw [offsetOfText?_objectText hshort] at h
    cases h
    rfl
  · -- The digits are too many to be read, and then there is no offset at all.
    have hread := toOption_read_objectText levels n
    rw [if_pos (Nat.not_le.mp hshort)] at hread
    obtain ⟨failure, hfailure⟩ := Result.toOption_eq_none.mp hread
    rw [offsetOfText?, hfailure] at h
    dsimp only at h
    split at h <;> cases h

/-- The bytes of a cursor are those of the object in it. -/
theorem bytes?_ofOffset (n : Nat) :
    bytes? (ofOffset n) = some (Text.utf8 (String.ofList (objectText n))) := by
  rw [bytes?, ofOffset, ofJson, Json.writeAscii, Json.write, writeOnto_offset,
    String.toList_ofList, if_neg, Text.Base64.decode?_encode]
  simpa using Text.Base64.encode_ascii _

/-- The cursor of an offset points at it. -/
theorem toOffset_ofOffset {n : Nat} (h : n < 10 ^ Number.maxDigits) :
    toOffset (some (ofOffset n)) levels = .ok n := by
  have hlength : (Nat.toDigits 10 n).length ≤ Number.maxDigits :=
    (Nat.length_toDigits_le_iff (by decide) (by decide)).mpr h
  have htext := Text.decodeMarked?_utf8_of_ascii (objectText_ascii n)
  rw [toOffset, offset?, bytes?_ofOffset, Option.bind_some, htext]
  simp only [offsetOfText?_objectText hlength]
  rfl

/-- A cursor points at no other offset than its own, however long that is. -/
theorem eq_of_toOffset_ofOffset {n m : Nat} (h : toOffset (some (ofOffset n)) levels = .ok m) : m = n := by
  rw [toOffset, offset?, bytes?_ofOffset, Option.bind_some,
    Text.decodeMarked?_utf8_of_ascii (objectText_ascii n)] at h
  obtain ⟨found, hfound, h⟩ := Result.bind_eq_ok.mp h
  cases found with
  | none => cases h
  | some offset =>
    cases h
    exact eq_of_offsetOfText?_objectText hfound

end RecordStore.Cursor
