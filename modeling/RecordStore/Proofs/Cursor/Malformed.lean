import Mathlib.Data.Nat.Notation
import RecordStore.Proofs.Cursor
import RecordStore.Proofs.Json.Depth
import RecordStore.Proofs.Json.Nesting

/-!
# Cursors are offsets or malformed

Of any text at all, reading it as a cursor makes an offset or says that the cursor is malformed
(`toOffset_total`). It makes an offset exactly of the texts that hold one, whether they were written
as cursors or not. The one other answer is that of a JSON text which nests too deep for the reader.
-/

namespace RecordStore.Cursor

/-- The text in a cursor. -/
def text? (cursor : String) : Option String := (bytes? cursor).bind Text.decodeMarked?

/-- Whether the text in a cursor is that of a JSON object with the offset `n`. -/
def Holds (levels : Nat) (cursor : String) (n : Nat) : Prop :=
  ∃ text json, text? cursor = some text ∧ Json.read text levels = .ok json ∧
    json.get? "o" = some (.integer n)

/-- Whether no more than so many levels lie inside the outermost one of the text in a cursor. -/
def IsShallow (levels : Nat) (cursor : String) : Bool :=
  (text? cursor).all fun text => Json.nesting text ≤ levels + 1

variable {levels : Nat} {text cursor : String} {n : Nat}

/-- The offset of a cursor that is a text is that of its text. -/
theorem offset?_of_text? (h : text? cursor = some text) :
    offset? levels cursor = offsetOfText? levels text := by
  rw [offset?]
  rw [text?] at h
  rw [h]

/-- A cursor that is no text has no offset. -/
theorem offset?_of_not_text? (h : text? cursor = none) : offset? levels cursor = .ok none := by
  rw [offset?]
  rw [text?] at h
  rw [h]

/-- A JSON value has the offset that is its whole number `o`, if that is not negative. -/
theorem offset_eq_some {json : Json} :
    ((json.get? "o").bind fun offset => offset.integer?.bind fun m =>
      if 0 ≤ m then some m.toNat else none) = some n ↔ json.get? "o" = some (.integer n) := by
  constructor
  · intro h
    obtain ⟨offset, hoffset, h⟩ := Option.bind_eq_some_iff.mp h
    obtain ⟨m, hm, h⟩ := Option.bind_eq_some_iff.mp h
    obtain ⟨hle, ⟨⟩⟩ := Option.ite_none_right_eq_some.mp h
    cases offset <;> cases hm
    rw [hoffset, Int.toNat_of_nonneg hle]
  · intro h
    rw [h]
    simp [Json.integer?]

/-- The text of an offset is JSON that has it as its member. -/
theorem offsetOfText?_eq_some :
    offsetOfText? levels text = .ok (some n) ↔
      ∃ json, Json.read text levels = .ok json ∧ json.get? "o" = some (.integer n) := by
  rw [offsetOfText?]
  cases hread : Json.read text levels with
  | ok json =>
    simp only [Except.ok.injEq, offset_eq_some, exists_eq_left']
  | error failure =>
    refine iff_of_false (fun h => ?_) ?_
    · dsimp only at h
      split at h <;> cases h
    · rintro ⟨_, ⟨⟩, _⟩

/-- Only a text that nests too deep is an error of its own. -/
theorem tooDeep_of_offsetOfText? {e : Error} (h : offsetOfText? levels text = .error e) :
    levels + 1 < Json.nesting text ∧
      ∃ isArray, e = .ofComplaint (.tooDeep isArray) := by
  rw [offsetOfText?] at h
  cases hread : Json.read text levels with
  | ok json =>
    rw [hread] at h
    cases h
  | error failure =>
    rw [hread] at h
    dsimp only at h
    split at h
    -- The complaint is passed on, and the reader has met as many open brackets as it says.
    · next isArray hcomplaint =>
      rw [hcomplaint] at h
      cases h
      rw [Json.read] at hread
      split at hread
      · cases hread
      · next stop hstop =>
        cases hread
        exact ⟨Json.lt_nesting_of_tooDeep hstop hcomplaint, isArray, rfl⟩
    · cases h

/-- Exactly the cursors that hold an offset have it. -/
theorem offset?_eq_some : offset? levels cursor = .ok (some n) ↔ Holds levels cursor n := by
  cases htext : text? cursor with
  | none =>
    rw [offset?_of_not_text? htext]
    refine iff_of_false nofun ?_
    rintro ⟨text, json, h, _⟩
    rw [htext] at h
    cases h
  | some text =>
    rw [offset?_of_text? htext, offsetOfText?_eq_some, Holds]
    simp [htext]

/-- The only failure is that of a text that nests too deeply. -/
theorem tooDeep_of_offset? {e : Error} (h : offset? levels cursor = .error e) :
    IsShallow levels cursor = false ∧ ∃ isArray, e = .ofComplaint (.tooDeep isArray) := by
  cases htext : text? cursor with
  | none =>
    rw [offset?_of_not_text? htext] at h
    cases h
  | some text =>
    rw [offset?_of_text? htext] at h
    obtain ⟨hdeep, hcomplaint⟩ := tooDeep_of_offsetOfText? h
    rw [IsShallow, htext, Option.all_some, decide_eq_false_iff_not]
    exact ⟨Nat.not_le.mpr hdeep, hcomplaint⟩

/-- The cursor of an offset consists of the characters that are safe in addresses. -/
theorem forall_mem_ofOffset (n : Nat) :
    ∀ c ∈ (ofOffset n).toList, Text.Base64.isAddressChar c := by
  rw [ofOffset, ofJson, String.toList_ofList]
  exact Text.Base64.encode_address _

/-- A cursor points at the offset that was written into it, and is safe in addresses. Of any text at
all, what is read is the offset that it holds, or that it is a malformed cursor if it holds none. The
exception is a text with more levels inside its outermost one than the stack has room for. -/
theorem toOffset_total (levels : Nat) :
    (∀ n < 10 ^ Number.maxDigits, toOffset (some (ofOffset n)) levels = .ok n ∧
      ∀ c ∈ (ofOffset n).toList, Text.Base64.isAddressChar c) ∧
    ∀ cursor,
      (∃ n, Holds levels cursor n ∧ toOffset (some cursor) levels = .ok n) ∨
      ((∀ n, ¬Holds levels cursor n) ∧
        toOffset (some cursor) levels = .error (.query (.malformedCursor cursor) .null)) ∨
      IsShallow levels cursor = false ∧
        ∃ isArray, toOffset (some cursor) levels = .error (.ofComplaint (.tooDeep isArray)) := by
  refine ⟨fun n hn => ⟨toOffset_ofOffset hn, forall_mem_ofOffset n⟩, fun cursor => ?_⟩
  cases hfound : offset? levels cursor with
  | error e =>
    obtain ⟨hdeep, isArray, rfl⟩ := tooDeep_of_offset? hfound
    refine .inr (.inr ⟨hdeep, isArray, ?_⟩)
    rw [toOffset, hfound]
    rfl
  | ok found =>
    cases found with
    | none =>
      refine .inr (.inl ⟨fun n hn => ?_, ?_⟩)
      · rw [offset?_eq_some.mpr hn] at hfound
        cases hfound
      · rw [toOffset, hfound]
        rfl
    | some n =>
      refine .inl ⟨n, offset?_eq_some.mp hfound, ?_⟩
      rw [toOffset, hfound]
      rfl

/-- A cursor with characters beyond the alphabet, which are skipped, and one that holds a boolean, on
a stack that has no room but for the object itself. -/
theorem toOffset_total_foreign :
    (0 < 10 ^ Number.maxDigits ∧ toOffset (some (ofOffset 0)) 0 = .ok 0) ∧
      (IsShallow 0 "ey Jv*Ijo3fQ==" ∧ toOffset (some "ey Jv*Ijo3fQ==") 0 = .ok 7) ∧
      IsShallow 0 "eyJvIjp0cnVlfQ==" ∧ toOffset (some "eyJvIjp0cnVlfQ==") 0 =
        .error (.query (.malformedCursor "eyJvIjp0cnVlfQ==") .null) := by
  have hzero : 0 < 10 ^ Number.maxDigits := Nat.pow_pos (by decide)
  refine ⟨⟨hzero, ((toOffset_total 0).1 0 hzero).1⟩, ?_, ?_⟩
  · have hshallow : IsShallow 0 "ey Jv*Ijo3fQ==" := by decide +kernel
    have htext : text? "ey Jv*Ijo3fQ==" = some "\x7b\"o\":7\x7d" := by decide +kernel
    -- The text is the one that the writer makes, so what is read of it is known.
    have hwritten : "\x7b\"o\":7\x7d" = Json.write Json.plain (.object [("o", .integer 7)]) := by
      decide +kernel
    have hseven : Json.Readable (.integer 7) := .integer (lt_of_le_maxDigits (by decide))
    have hread : Json.read "\x7b\"o\":7\x7d" 0 = .ok (.object [("o", .integer 7)]) := by
      rw [hwritten]
      exact Json.read_write (.object (by decide) (by simpa using hseven)) (by decide)
    have hholds : Holds 0 "ey Jv*Ijo3fQ==" 7 := ⟨_, _, htext, hread, rfl⟩
    refine ⟨hshallow, ?_⟩
    -- A cursor has one offset, and a shallow one is not refused for its depth.
    obtain ⟨n, hn, hoffset⟩ | ⟨hnone, _⟩ | ⟨hdeep, _⟩ := (toOffset_total 0).2 "ey Jv*Ijo3fQ=="
    · have hsame := (offset?_eq_some.mpr hn).symm.trans (offset?_eq_some.mpr hholds)
      cases hsame
      exact hoffset
    · exact absurd hholds (hnone 7)
    · rw [hshallow] at hdeep
      cases hdeep
  · have hshallow : IsShallow 0 "eyJvIjp0cnVlfQ==" := by decide +kernel
    have htext : text? "eyJvIjp0cnVlfQ==" = some "\x7b\"o\":true\x7d" := by decide +kernel
    have hwritten : "\x7b\"o\":true\x7d" = Json.write Json.plain (.object [("o", .boolean true)]) := by
      decide +kernel
    have htrue : Json.Readable (.boolean true) := .boolean true
    have hread : Json.read "\x7b\"o\":true\x7d" 0 = .ok (.object [("o", .boolean true)]) := by
      rw [hwritten]
      exact Json.read_write (.object (by decide) (by simpa using htrue)) (by decide)
    refine ⟨hshallow, ?_⟩
    obtain ⟨n, ⟨text, json, hn, hjson, hoffset⟩, _⟩ | ⟨_, herror⟩ | ⟨hdeep, _⟩ :=
      (toOffset_total 0).2 "eyJvIjp0cnVlfQ=="
    · cases htext.symm.trans hn
      cases hread.symm.trans hjson
      cases hoffset
    · exact herror
    · rw [hshallow] at hdeep
      cases hdeep

end RecordStore.Cursor
