import RecordStore.Text.Utf8

/-!
# Texts and their bytes

The bytes of a text are read as that text (`ofUtf8?_utf8`). An ASCII text has its characters for
bytes (`utf8_of_ascii`), and without a zero among them no mark and no other width is seen in its
bytes (`decodeMarked?_utf8_of_ascii`).
-/

namespace RecordStore.Text

/-- The bytes that the loop adds to a list are those from an index on. -/
theorem toList_loop_eq (bytes : ByteArray) (i : Nat) (done : List UInt8) :
    ByteArray.toList.loop bytes i done = done.reverse ++ bytes.data.toList.drop i := by
  fun_induction ByteArray.toList.loop bytes i done with
  | case1 i done hi ih =>
    have hdata : i < bytes.data.toList.length := by simpa using hi
    rw [ih, List.reverse_cons, List.append_assoc, List.drop_eq_getElem_cons hdata]
    simp [ByteArray.get!, hi]
  | case2 i done hi =>
    have hdata : bytes.data.toList.length ≤ i := by simpa using hi
    rw [List.drop_eq_nil_of_le hdata, List.append_nil]

theorem toList_eq (bytes : ByteArray) : bytes.toList = bytes.data.toList :=
  toList_loop_eq bytes 0 []

/-- The bytes of a text are read as the text. -/
theorem ofUtf8?_utf8 (text : String) : ofUtf8? (utf8 text) = some text := by
  rw [ofUtf8?, utf8, toList_eq, Array.toArray_toList]
  exact dif_pos text.isValidUTF8

/-- Bytes that are read as a text are its bytes. -/
theorem utf8_of_ofUtf8? {bytes : Bytes} {text : String} (h : ofUtf8? bytes = some text) :
    utf8 text = bytes := by
  rw [ofUtf8?, String.fromUTF8?] at h
  split at h
  · cases h
    rw [utf8, toList_eq]
    exact List.toList_toArray
  · cases h

/-- The bytes of an ASCII text are its characters. -/
theorem utf8_of_ascii (chars : List Char) (h : ∀ c ∈ chars, c.toNat < 128) :
    utf8 (String.ofList chars) = chars.map fun c => c.val.toUInt8 := by
  have hbytes : chars.flatMap String.utf8EncodeChar = chars.map fun c => c.val.toUInt8 := by
    induction chars with
    | nil => rfl
    | cons c rest ih =>
      obtain ⟨hc, hrest⟩ := List.forall_mem_cons.mp h
      have hsize : c.utf8Size = 1 := by
        rw [Char.utf8Size_eq_one_iff]
        exact Nat.le_of_lt_succ hc
      rw [List.flatMap_cons, ih hrest, String.utf8EncodeChar_eq_singleton hsize]
      rfl
  rw [utf8, toList_eq, String.toUTF8_eq_toByteArray, String.toByteArray_ofList, List.utf8Encode,
    List.toList_data_toByteArray, hbytes]

/-- ASCII bytes have no halves of pairs among them. -/
theorem keepHalves_of_ascii {bytes : Bytes} (h : ∀ byte ∈ bytes, byte < 128) :
    keepHalves bytes = bytes := by
  -- The byte that halves begin with is not an ASCII one.
  induction bytes using keepHalves.induct with
  | case1 b c rest _ _ => exact absurd (h 0xed (by simp)) (by decide)
  | case2 b c rest _ _ => exact absurd (h 0xed (by simp)) (by decide)
  | case3 byte rest hbyte ih =>
    rw [keepHalves, ih fun b hb => h b (List.mem_cons_of_mem _ hb)]
    exact hbyte
  | case4 => rfl

/-- Bytes of ASCII characters other than the first one are read as UTF-8. -/
theorem decodeMarked?_of_ascii {bytes : Bytes} (h : ∀ byte ∈ bytes, byte ≠ 0 ∧ byte < 128) :
    decodeMarked? bytes = ofUtf8? bytes := by
  have hloose : ofLooseUtf8? bytes = ofUtf8? bytes := by
    rw [ofLooseUtf8?, keepHalves_of_ascii fun byte hbyte => (h byte hbyte).2]
  have hmark (mark : Bytes) (hhigh : ∃ byte ∈ mark, ¬byte < 128) :
      ¬mark.isPrefixOf bytes = true := by
    intro hmarked
    obtain ⟨byte, hbyte, hbyte'⟩ := hhigh
    exact hbyte' (h byte ((List.isPrefixOf_iff_prefix.mp hmarked).subset hbyte)).2
  unfold decodeMarked?
  rw [if_neg (hmark [0, 0, 0xfe, 0xff] (by decide)), if_neg (hmark [0xff, 0xfe, 0, 0] (by decide)),
    if_neg (hmark [0xfe, 0xff] (by decide)), if_neg (hmark [0xff, 0xfe] (by decide)),
    if_neg (hmark [0xef, 0xbb, 0xbf] (by decide))]
  -- Without a mark, only a zero byte tells another width.
  split
  · next a b c d rest =>
    rw [if_neg (h a (by simp)).1, if_neg (h b (by simp)).1]
    exact hloose
  · next a b =>
    rw [if_neg (h a (by simp)).1, if_neg (h b (by simp)).1]
    exact hloose
  · exact hloose

/-- An ASCII text without a zero character is read from its bytes. -/
theorem decodeMarked?_utf8_of_ascii {chars : List Char}
    (h : ∀ c ∈ chars, 0 < c.toNat ∧ c.toNat < 128) :
    decodeMarked? (utf8 (String.ofList chars)) = some (String.ofList chars) := by
  rw [decodeMarked?_of_ascii, ofUtf8?_utf8]
  rw [utf8_of_ascii chars fun c hc => (h c hc).2]
  intro byte hbyte
  obtain ⟨c, hc, rfl⟩ := List.mem_map.mp hbyte
  obtain ⟨hpositive, hascii⟩ := h c hc
  have hnumber : c.val.toUInt8.toNat = c.toNat :=
    Nat.mod_eq_of_lt (Nat.lt_trans hascii (by decide))
  refine ⟨fun hzero => ?_, UInt8.lt_iff_toNat_lt.mpr (hnumber ▸ hascii)⟩
  rw [hzero] at hnumber
  exact Nat.ne_of_lt hpositive hnumber

end RecordStore.Text
