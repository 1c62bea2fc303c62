import Mathlib.Data.List.TakeWhile
import RecordStore.Proofs.Json.Depth

/-!
# What is read is readable

Not every value can come out of a text. A reader refuses a whole number with too many digits, and it
keeps one member for each name of an object, so what it gives is readable (`Json.readable_of_read`).
-/

namespace RecordStore

/-- A whole number is short exactly if it lies below the power of ten with the most zeros. -/
theorem Number.isShort_iff {n : Int} : isShort n = true ↔ n.natAbs < 10 ^ maxDigits :=
  decide_eq_true_iff.trans (Nat.length_toDigits_le_iff (by decide) (by decide))

/-- Digits write a number below the power of ten that has as many zeros. -/
theorem Number.ofDigits_lt {digits : List Char} (h : ∀ c ∈ digits, c.isDigit) :
    ofDigits digits < 10 ^ digits.length := by
  induction digits using List.reverseRecOn with
  | nil => exact Nat.one_pos
  | append_singleton digits c ih =>
    obtain ⟨hdigits, hc⟩ := List.forall_mem_append.mp h
    have hvalue : c.toNat - 48 ≤ 9 := by
      have hle : c.toNat ≤ 57 := (Char.isDigit_iff_toNat.mp (hc c List.mem_cons_self)).2
      omega
    have hsplit : ofDigits (digits ++ [c]) = ofDigits digits * 10 + (c.toNat - 48) := by
      rw [ofDigits, List.foldl_append, List.foldl_cons, List.foldl_nil, ← ofDigits]
    have hbefore := ih hdigits
    rw [hsplit, List.length_append, List.length_singleton, Nat.pow_succ]
    omega

namespace Json

/-- What a reading finds, if it finds anything, is of a kind. -/
def Finds {α : Type} (P : α → Prop) : Except Stop (α × List Char) → Prop
  | .ok (found, _) => P found
  | .error _ => True

/-- A reading that goes on with another one finds what the other one does. -/
theorem Finds.bind {α β : Type} {P : α → Prop} {Q : β → Prop} {read : Except Stop (α × List Char)}
    {next : α × List Char → Except Stop (β × List Char)} (h : Finds P read)
    (hnext : ∀ found tail, P found → Finds Q (next (found, tail))) : Finds Q (read >>= next) := by
  cases read with
  | error stop => trivial
  | ok found => exact hnext found.1 found.2 h

/-- The members of a readable object. -/
def ReadableMembers (members : List (String × Json)) : Prop :=
  (Assoc.keys members).Nodup ∧ ∀ member ∈ members, Readable member.2

/-- A member that is put replaces one of its name, so no name stands twice. -/
theorem ReadableMembers.put {members : List (String × Json)} (h : ReadableMembers members)
    (name : String) {value : Json} (hvalue : value.Readable) :
    ReadableMembers (Assoc.put name value members) :=
  ⟨Assoc.nodup_keys_put h.1 name value, Assoc.forall_mem_put h.2 hvalue⟩

/-! ## Words and numbers -/

theorem isDigit_of_mem_wholeDigits {text : List Char} : ∀ c ∈ (wholeDigits text).1, c.isDigit := by
  rw [wholeDigits.eq_def]
  split
  · exact List.forall_mem_singleton.mpr rfl
  · exact fun c hc => List.mem_takeWhile_imp hc

/-- A number that is read is short enough, or a double. -/
theorem finds_readNumber (start : Nat) (negative : Bool) (text : List Char) :
    Finds Readable (readNumber start negative text) := by
  simp only [readNumber]
  split
  · trivial
  · split
    · split
      · trivial
      · next hshort =>
        -- The digits are few enough for the number that they write.
        refine .integer (Nat.lt_of_lt_of_le ?_ (Nat.pow_le_pow_right (by decide) (Nat.not_lt.mp hshort)))
        have hlt : Number.ofDigits (wholeDigits text).1 < _ := Number.ofDigits_lt isDigit_of_mem_wholeDigits
        split <;> simpa using hlt
    · exact .double _

theorem readable_of_mem_words : ∀ word ∈ words, Readable word.2 := by
  simp [words, Readable.null, Readable.boolean, Readable.double]

/-- A word or a number that is read is readable. -/
theorem finds_readPlain (text : List Char) : Finds Readable (readPlain text) := by
  rw [readPlain.eq_def]
  split
  · next word value hword => exact readable_of_mem_words _ (List.mem_of_find?_eq_some hword)
  · split
    · exact finds_readNumber ..
    · exact finds_readNumber ..

/-! ## Values -/

variable {d : Dialect} {fuel : Nat}

variable (d fuel) in
/-- What the readers find with so much fuel. -/
structure FindsReadable : Prop where
  value : ∀ levels text, Finds Readable (readValue d fuel levels text)
  items : ∀ levels text, Finds (∀ item ∈ ·, Readable item) (readItems d fuel levels text)
  members : ∀ levels before text, ReadableMembers before →
    Finds ReadableMembers (readMembers d fuel levels before text)

/-- A value that is read is readable. -/
theorem finds_readValue (ih : FindsReadable d fuel) (levels : Nat) (text : List Char) :
    Finds Readable (readValue d (fuel + 1) levels text) := by
  have hnil : ReadableMembers [] := ⟨List.nodup_nil, List.forall_mem_nil _⟩
  rw [readValue.eq_def]
  dsimp only
  split
  · cases readString d _ _ with
    | error stop => trivial
    | ok found => exact .string _
  · -- An array.
    split
    · split
      · trivial
      · exact .array (List.forall_mem_nil _)
    · exact .array (List.forall_mem_nil _)
    · trivial
    · exact (ih.items _ _).bind fun items tail hitems => .array hitems
  · -- An object.
    split
    · split
      · trivial
      · exact .object hnil.1 hnil.2
    · exact .object hnil.1 hnil.2
    · trivial
    · exact (ih.members _ [] _ hnil).bind fun members tail hmembers => .object hmembers.1 hmembers.2
  · exact finds_readPlain text

/-- Items that are read are readable. -/
theorem finds_readItems (ih : FindsReadable d fuel) (levels : Nat) (text : List Char) :
    Finds (∀ item ∈ ·, Readable item) (readItems d (fuel + 1) levels text) := by
  rw [readItems]
  refine (ih.value levels text).bind fun item rest hitem => ?_
  dsimp only
  split
  · exact List.forall_mem_singleton.mpr hitem
  · exact (ih.items levels _).bind fun items tail hitems => List.forall_mem_cons.mpr ⟨hitem, hitems⟩
  · trivial

/-- Members that are read are those of a readable object. -/
theorem finds_readMembers (hd : d.merges = true) (ih : FindsReadable d fuel) (levels : Nat)
    (before : List (String × Json)) (text : List Char) (hbefore : ReadableMembers before) :
    Finds ReadableMembers (readMembers d (fuel + 1) levels before text) := by
  rw [readMembers.eq_def]
  dsimp only
  split
  · next rest =>
    cases readString d _ rest with
    | error stop => trivial
    | ok name =>
      dsimp only [bind, Except.bind]
      split
      · refine (ih.value levels _).bind fun value rest hvalue => ?_
        -- A name that was read before loses its value, and is not read twice.
        have hmembers : ReadableMembers (addMember d (String.ofList name.1) value before) := by
          rw [addMember, if_pos hd]
          exact hbefore.put _ hvalue
        dsimp only
        split
        · exact hmembers
        · exact ih.members levels _ _ hmembers
        · trivial
      · trivial
  · trivial

/-- A reader that keeps one member for each name finds what is readable. -/
theorem findsReadable (hd : d.merges = true) (fuel : Nat) : FindsReadable d fuel := by
  induction fuel with
  | zero => exact ⟨fun _ _ => trivial, fun _ _ => trivial, fun _ _ _ _ => trivial⟩
  | succ fuel ih => exact ⟨finds_readValue ih, finds_readItems ih, finds_readMembers hd ih⟩

/-- The value of a text has no whole number with too many digits, and no name twice. -/
theorem readable_of_read {text : String} {levels : Nat} {j : Json} (h : read text levels = .ok j) :
    j.Readable := by
  have hvalue := (findsReadable (d := .lenient levels) rfl (2 * text.toList.length + 2)).value
    (Dialect.lenient levels).maxLevels (skipSpaces text.toList)
  simp only [read] at h
  split at h
  · next value hread =>
    obtain rfl := Except.ok.inj h
    -- Spaces before and behind the value do not belong to it.
    rw [readChars] at hread
    split at hread
    · cases hread
    · obtain ⟨⟨value', rest⟩, hfound, hread⟩ := Result.bind_eq_ok.mp hread
      dsimp only at hread
      split at hread
      · obtain rfl := Except.ok.inj hread
        rw [hfound] at hvalue
        exact hvalue
      · cases hread
  · cases h

end Json

end RecordStore
