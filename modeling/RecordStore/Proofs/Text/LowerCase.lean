import RecordStore.Text.LowerCase

/-!
# Words of small ASCII letters

Few capitals beyond ASCII have a small letter in ASCII: only the sign for kelvin does. So a word that
has no `k` is the lower case form of those texts alone that are written with its letters, small or
capital ones (`lower_eq_iff`).
-/

namespace RecordStore.Text

/-- A small letter whose only capital is the ASCII one. -/
def IsPlainLetter (c : Char) : Prop := 97 ≤ c.toNat ∧ c.toNat ≤ 122 ∧ c ≠ 'k'

instance (c : Char) : Decidable (IsPlainLetter c) :=
  inferInstanceAs (Decidable (97 ≤ c.toNat ∧ c.toNat ≤ 122 ∧ c ≠ 'k'))

/-- But for the sign for kelvin, the small letters of capitals beyond ASCII lie beyond ASCII. -/
theorem capitalRuns_beyond : ∀ run ∈ capitalRuns,
    (run.first = 0x212a ∧ run.last = 0x212a ∧ run.distance = -8383) ∨
      128 ≤ (run.first : Int) + run.distance := by
  decide +kernel

/-- A number that is no character stands for the zero character. -/
theorem toNat_ofNat (n : Nat) : (Char.ofNat n).toNat = if n.isValidChar then n else 0 := by
  unfold Char.ofNat
  by_cases h : n.isValidChar
  · rw [dif_pos h, if_pos h]
    rfl
  · rw [dif_neg h, if_neg h]
    rfl

/-- Letters beyond ASCII are left as they are. -/
theorem toLower_of_beyond {c : Char} (h : 128 ≤ c.toNat) : c.toLower = c := by
  refine dif_neg fun hcapital => ?_
  have hz : c.toNat ≤ 90 := UInt32.le_iff_toNat_le.mp hcapital.2
  omega

/-- A character beyond ASCII has no plain letter for its lower case form. -/
theorem exists_mem_lowerChar {c : Char} (h : 128 ≤ c.toNat) :
    ∃ x ∈ lowerChar c, ¬IsPlainLetter x := by
  unfold lowerChar
  rw [if_neg (Nat.not_lt.mpr h)]
  split
  · exact ⟨Char.ofNat 0x307, List.mem_cons_of_mem _ List.mem_cons_self, by decide⟩
  · split
    · next run hrun =>
      have hmem := List.mem_of_find?_eq_some hrun
      have hinside := List.find?_some hrun
      simp only [decide_eq_true_eq] at hinside
      refine ⟨_, List.mem_singleton_self _, fun hplain => ?_⟩
      -- Of all runs only that of the Kelvin sign leads back to ASCII.
      obtain ⟨hfirst, hlast, hdistance⟩ | hbeyond := capitalRuns_beyond run hmem
      · have hkelvin : c.toNat = 0x212a := by omega
        rw [hkelvin, hdistance] at hplain
        exact absurd hplain (by decide)
      · obtain ⟨hlow, hhigh, -⟩ := hplain
        rw [toNat_ofNat] at hlow hhigh
        split at hhigh
        · omega
        · next hinvalid =>
          rw [if_neg hinvalid] at hlow
          omega
    · exact ⟨c, List.mem_singleton_self _, fun hplain => absurd hplain.2.1 (by omega)⟩

/-- A text is in lower case a word of plain letters exactly if it is written with the letters of the
word, small or capital ones. -/
theorem lower_eq_iff {word : List Char} (hword : ∀ c ∈ word, IsPlainLetter c) (text : List Char) :
    lower text = word ↔ text.map Char.toLower = word := by
  -- What stands before matters for the final sigma alone, which no plain letter is.
  have hafter (before : List Char) : lowerAfter before text = word ↔
      text.map Char.toLower = word := by
    induction text generalizing before word with
    | nil => rfl
    | cons c rest ih =>
      rw [lowerAfter, List.map_cons]
      by_cases hascii : c.toNat < 128
      · have hsigma : c ≠ 'Σ' := by
          rintro rfl
          exact absurd hascii (by decide)
        rw [if_neg (fun h => hsigma h.1), lowerChar, if_pos hascii, List.singleton_append]
        cases word with
        | nil => simp
        | cons first others =>
          rw [List.cons.injEq, List.cons.injEq,
            ih (fun x hx => hword x (List.mem_cons_of_mem _ hx))]
      · -- Neither form of such a character is in the word.
        rw [toLower_of_beyond (Nat.not_lt.mp hascii)]
        constructor
        · rintro rfl
          obtain ⟨x, hx, hplain⟩ := exists_mem_lowerChar (Nat.not_lt.mp hascii)
          split at hword
          · exact absurd (hword 'ς' (by simp)) (by decide)
          · exact absurd (hword x (by simp [hx])) hplain
        · rintro rfl
          have hplain := hword c (by simp)
          exact absurd hplain.2.1 (by omega)
  exact hafter []

end RecordStore.Text
