import Mathlib.Data.List.TakeWhile
import RecordStore.Json.Reader
import RecordStore.Proofs.Result

/-!
# Texts that nest too deep

How deep a JSON text nests can be told from its characters alone: `nesting` is the largest number of
its brackets that stand open at once, those in its strings left out. A reader complains of depth
only about a text that nests deeper than the levels it admits (`lt_nesting_of_tooDeep`), whatever
else the text holds.

The argument follows the reader. Strings, words and numbers leave the number of open brackets as it
was, a whole array or object closes the brackets that it opens, and each level of the reader goes
with one more open bracket.
-/

namespace RecordStore.Json

/-- Where a scan of a text stands. -/
inductive Place
  | outside
  /-- In a string. -/
  | inside
  /-- In a string, behind a backslash. -/
  | escaped

/-- The largest number of brackets that stand open at once, from `held` of them on. -/
def mostOpen : Place → Nat → List Char → Nat
  | _, held, [] => held
  | .outside, held, c :: rest =>
    if c = '"' then mostOpen .inside held rest
    else if c = '[' ∨ c = '\x7b' then mostOpen .outside (held + 1) rest
    else if c = ']' ∨ c = '\x7d' then max held (mostOpen .outside (held - 1) rest)
    else mostOpen .outside held rest
  | .inside, held, c :: rest =>
    if c = '"' then mostOpen .outside held rest
    else if c = '\\' then mostOpen .escaped held rest
    else mostOpen .inside held rest
  | .escaped, held, _ :: rest => mostOpen .inside held rest

/-- How deep the brackets of a text lie inside each other. -/
def nesting (text : String) : Nat := mostOpen .outside 0 text.toList

/-- Whether a character is neither a quote nor a bracket. -/
def isFiller (c : Char) : Bool :=
  c != '"' && c != '[' && c != '\x7b' && c != ']' && c != '\x7d'

variable {held : Nat} {text rest tail : List Char}

/-- The brackets that are open count. -/
theorem le_mostOpen (place : Place) (held : Nat) (text : List Char) :
    held ≤ mostOpen place held text := by
  fun_induction mostOpen place held text <;> omega

/-- A quotation mark opens a string. -/
theorem mostOpen_quote : mostOpen .outside held ('"' :: rest) = mostOpen .inside held rest := by
  rw [mostOpen, if_pos rfl]

/-- An opening bracket counts. -/
theorem mostOpen_opening {c : Char} (hc : c = '[' ∨ c = '\x7b') :
    mostOpen .outside held (c :: rest) = mostOpen .outside (held + 1) rest := by
  rw [mostOpen, if_neg (by rintro rfl; revert hc; decide), if_pos hc]

/-- What follows a closing bracket has no more brackets open than the whole. -/
theorem mostOpen_le_closing {c : Char} (hc : c = ']' ∨ c = '\x7d') :
    mostOpen .outside held rest ≤ mostOpen .outside (held + 1) (c :: rest) := by
  rw [mostOpen, if_neg (by rintro rfl; revert hc; decide),
    if_neg (by rintro (rfl | rfl) <;> revert hc <;> decide), if_pos hc]
  exact Nat.le_max_right ..

theorem mostOpen_filler {c : Char} (hc : isFiller c) :
    mostOpen .outside held (c :: rest) = mostOpen .outside held rest := by
  simp only [isFiller, Bool.and_eq_true, bne_iff_ne] at hc
  rw [mostOpen, if_neg hc.1.1.1.1, if_neg (not_or.mpr ⟨hc.1.1.1.2, hc.1.1.2⟩),
    if_neg (not_or.mpr ⟨hc.1.2, hc.2⟩)]

theorem mostOpen_append {filler : List Char} (h : ∀ c ∈ filler, isFiller c) :
    mostOpen .outside held (filler ++ rest) = mostOpen .outside held rest := by
  induction filler with
  | nil => rfl
  | cons c filler ih =>
    obtain ⟨hc, hfiller⟩ := List.forall_mem_cons.mp h
    rw [List.cons_append, mostOpen_filler hc, ih hfiller]

theorem mostOpen_dropWhile {p : Char → Bool} (hp : ∀ c, p c → isFiller c) :
    mostOpen .outside held (text.dropWhile p) = mostOpen .outside held text := by
  calc mostOpen .outside held (text.dropWhile p)
      = mostOpen .outside held (text.takeWhile p ++ text.dropWhile p) :=
        (mostOpen_append fun c hc => hp c (List.mem_takeWhile_imp hc)).symm
    _ = mostOpen .outside held text := by rw [List.takeWhile_append_dropWhile]

/-! ## Blanks, words and numbers -/

theorem mostOpen_skipSpaces :
    mostOpen .outside held (skipSpaces text) = mostOpen .outside held text := by
  refine mostOpen_dropWhile fun c hc => ?_
  simp only [isSpace, Bool.or_eq_true, decide_eq_true_eq] at hc
  obtain ((rfl | rfl) | rfl) | rfl := hc <;> rfl

theorem isFiller_of_isDigit {c : Char} (hc : c.isDigit) : isFiller c := by
  have hne {other : Char} (hother : other.isDigit = false) : c ≠ other := by
    rintro rfl
    rw [hc] at hother
    cases hother
  simp [isFiller, hne]

theorem mostOpen_splitDigits :
    mostOpen .outside held (splitDigits text).2 = mostOpen .outside held text :=
  mostOpen_dropWhile fun _ => isFiller_of_isDigit

theorem mostOpen_wholeDigits :
    mostOpen .outside held (wholeDigits text).2 = mostOpen .outside held text := by
  rw [wholeDigits.eq_def]
  split
  · exact (mostOpen_filler rfl).symm
  · exact mostOpen_splitDigits

theorem mostOpen_fractionDigits :
    mostOpen .outside held (fractionDigits text).2 = mostOpen .outside held text := by
  rw [fractionDigits.eq_def]
  split
  · dsimp only
    split
    · rfl
    · rw [mostOpen_splitDigits, mostOpen_filler rfl]
  · rfl

theorem mostOpen_takeSign :
    mostOpen .outside held (Number.takeSign text).2 = mostOpen .outside held text := by
  rw [Number.takeSign.eq_def]
  split
  · exact (mostOpen_filler rfl).symm
  · exact (mostOpen_filler rfl).symm
  · rfl

theorem mostOpen_exponent? :
    mostOpen .outside held (exponent? text).2 = mostOpen .outside held text := by
  rw [exponent?.eq_def]
  split
  · split
    · next c rest hc =>
      have hfiller : isFiller c := by obtain rfl | rfl := hc <;> rfl
      dsimp only
      split
      · rfl
      · rw [mostOpen_splitDigits, mostOpen_takeSign, mostOpen_filler hfiller]
    · rfl
  · rfl

/-! ## What a reading does to the brackets -/

/-- Whether a reading fits a text in which at most `most` brackets stand open at once: no more than
that do so in what it leaves, from `after` of them on, and it complains of depth only if they are
more than `levels`. -/
def Fits {α : Type} (most levels after : Nat) : Except Stop (α × List Char) → Prop
  | .ok (_, tail) => mostOpen .outside after tail ≤ most
  | .error stop => ∀ isArray, stop.complaint = .tooDeep isArray → levels < most

section Fits

variable {α β : Type} {most levels after : Nat}

/-- A complaint about something else than depth fits every text. -/
theorem fits_error {complaint : Complaint} {left : Nat}
    (h : ∀ isArray, complaint ≠ .tooDeep isArray) :
    Fits most levels after (.error ⟨complaint, left⟩ : Except Stop (α × List Char)) :=
  fun isArray hcomplaint => absurd hcomplaint (h isArray)

/-- A reading that goes on with another one. -/
theorem Fits.bind {read : Except Stop (α × List Char)}
    {next : α × List Char → Except Stop (β × List Char)} {after' : Nat}
    (h : Fits most levels after read)
    (hnext : ∀ found tail, mostOpen .outside after tail ≤ most →
      Fits most levels after' (next (found, tail))) :
    Fits most levels after' (read >>= next) := by
  cases read with
  | error stop => exact h
  | ok found => exact hnext found.1 found.2 h

/-- What is made of what was read does not matter. -/
theorem Fits.returning {read : Except Stop (α × List Char)} {f : α × List Char → β}
    (h : Fits most levels after read) :
    Fits most levels after (read >>= fun found => pure (f found, found.2)) :=
  h.bind fun _ _ hle => hle

/-- A reading fits a text with more brackets as well. -/
theorem Fits.mono {read : Except Stop (α × List Char)} {most' : Nat}
    (h : Fits most levels after read) (hle : most ≤ most') : Fits most' levels after read := by
  cases read with
  | error stop => exact fun isArray hstop => Nat.lt_of_lt_of_le (h isArray hstop) hle
  | ok found => exact Nat.le_trans h hle

end Fits

variable {d : Dialect} {levels : Nat}

/-- A number goes on to the end of its digits. -/
theorem fits_readNumber (start : Nat) (negative : Bool) :
    Fits (mostOpen .outside held text) levels held (readNumber start negative text) := by
  have hrest : mostOpen .outside held (exponent? (fractionDigits (wholeDigits text).2).2).2 =
      mostOpen .outside held text := by
    rw [mostOpen_exponent?, mostOpen_fractionDigits, mostOpen_wholeDigits]
  simp only [readNumber]
  split
  · exact fits_error nofun
  · split
    · split
      · exact fits_error nofun
      · exact Nat.le_of_eq hrest
    · exact Nat.le_of_eq hrest

theorem all_isFiller_words : (words.all fun word => word.1.all isFiller) = true := rfl

/-- A word or a number counts nothing. -/
theorem fits_readPlain : Fits (mostOpen .outside held text) levels held (readPlain text) := by
  rw [readPlain.eq_def]
  split
  · next word value hword =>
    have hfiller := List.all_eq_true.mp all_isFiller_words _ (List.mem_of_find?_eq_some hword)
    rw [List.all_eq_true] at hfiller
    have hfront : word.isPrefixOf text := by simpa using List.find?_some hword
    obtain ⟨tail, rfl⟩ := List.isPrefixOf_iff_prefix.mp hfront
    rw [mostOpen_append hfiller, List.drop_left]
    exact Nat.le_refl _
  · split
    · rw [mostOpen_filler rfl]
      exact fits_readNumber ..
    · exact fits_readNumber ..

/-! ## Strings -/

/-- An ordinary character of a string counts nothing. -/
theorem mostOpen_inside {c : Char} (hquote : c ≠ '"') (hescape : c ≠ '\\') :
    mostOpen .inside held (c :: rest) = mostOpen .inside held rest := by
  rw [mostOpen, if_neg hquote, if_neg hescape]

/-- What a backslash precedes counts nothing. -/
theorem mostOpen_backslash {c : Char} :
    mostOpen .inside held ('\\' :: c :: rest) = mostOpen .inside held rest := by
  rw [mostOpen, if_neg (by decide), if_pos rfl, mostOpen]

/-- The four characters of a unit are digits. -/
theorem isSome_value?_of_readUnit? {unit : Nat} (h : readUnit? text = some unit) :
    ∀ c ∈ text.take 4, (Text.Hex.value? c).isSome := by
  -- A digit that is none makes the rest come to nothing.
  have hfold (digits : List Char) (found : Option Nat)
      (h : (digits.foldl (fun n? c => do return (← n?) * 16 + (← Text.Hex.value? c)) found).isSome) :
      found.isSome ∧ ∀ c ∈ digits, (Text.Hex.value? c).isSome := by
    induction digits generalizing found with
    | nil => exact ⟨h, List.forall_mem_nil _⟩
    | cons c digits ih =>
      obtain ⟨hnext, hdigits⟩ := ih _ h
      cases found with
      | none => cases hnext
      | some n =>
        refine ⟨rfl, List.forall_mem_cons.mpr ⟨?_, hdigits⟩⟩
        cases hc : Text.Hex.value? c with
        | none => simp [hc] at hnext
        | some digit => rfl
  rw [readUnit?] at h
  split at h
  · exact (hfold _ _ (Option.isSome_of_eq_some h)).2
  · cases h

/-- An escape by the number of a unit stays in its string. -/
theorem mostOpen_unitEscape {unit : Nat} (h : readUnit? rest = some unit) :
    mostOpen .inside held ('\\' :: 'u' :: rest) = mostOpen .inside held (rest.drop 4) := by
  have hdigits (digits : List Char) (h : ∀ c ∈ digits, (Text.Hex.value? c).isSome) :
      mostOpen .inside held (digits ++ rest.drop 4) = mostOpen .inside held (rest.drop 4) := by
    induction digits with
    | nil => rfl
    | cons c digits ih =>
      obtain ⟨hc, hrest⟩ := List.forall_mem_cons.mp h
      rw [List.cons_append, mostOpen_inside, ih hrest]
      · rintro rfl
        cases hc
      · rintro rfl
        cases hc
  rw [mostOpen_backslash, ← hdigits _ (isSome_value?_of_readUnit? h), List.take_append_drop]

/-- The two escapes of a pair stay in their string. -/
theorem mostOpen_pairEscape {high low : Nat} (hhigh : readUnit? rest = some high)
    (hnext : (rest.drop 4).take 2 = ['\\', 'u'])
    (hlow : readUnit? ((rest.drop 4).drop 2) = some low) :
    mostOpen .inside held ('\\' :: 'u' :: rest) = mostOpen .inside held ((rest.drop 4).drop 6) := by
  -- Behind the first unit the second escape begins like the first one.
  have hsplit : rest.drop 4 = '\\' :: 'u' :: (rest.drop 4).drop 2 := by
    calc rest.drop 4 = (rest.drop 4).take 2 ++ (rest.drop 4).drop 2 :=
          (List.take_append_drop ..).symm
      _ = _ := by rw [hnext, List.cons_append, List.cons_append, List.nil_append]
  calc mostOpen .inside held ('\\' :: 'u' :: rest)
      = mostOpen .inside held (rest.drop 4) := mostOpen_unitEscape hhigh
    _ = mostOpen .inside held ('\\' :: 'u' :: (rest.drop 4).drop 2) := congrArg _ hsplit
    _ = mostOpen .inside held (((rest.drop 4).drop 2).drop 4) := mostOpen_unitEscape hlow
    _ = _ := by rw [List.drop_drop]

/-- A string goes on to its closing quote. -/
theorem fits_readString (start : Nat) :
    Fits (mostOpen .inside held text) levels held (readString d start text) := by
  -- The cases are the ways in which a string may go on; each takes its characters off the scan.
  fun_induction readString d start text with
  | case1 => exact fits_error nofun
  | case2 rest =>
    rw [mostOpen, if_pos rfl]
    exact Nat.le_refl _
  | case3 => exact fits_error nofun
  | case4 => exact fits_error nofun
  | case5 rest high hhigh after hpair low hlow _ ih =>
    rw [mostOpen_pairEscape hhigh hpair.2.2 hlow]
    exact ih.returning
  | case6 => exact fits_error nofun
  | case7 rest unit hunit after _ _ _ _ _ _ ih =>
    rw [mostOpen_unitEscape hunit]
    exact ih.returning
  | case8 => exact fits_error nofun
  | case9 rest unit hunit after _ _ _ ih =>
    rw [mostOpen_unitEscape hunit]
    exact ih.returning
  | case10 => exact fits_error nofun
  | case11 => exact fits_error nofun
  | case12 c rest _ _ _ ih =>
    rw [mostOpen_backslash]
    exact ih.returning
  | case13 => exact fits_error nofun
  | case14 c rest hquote _ hlast hescape _ ih =>
    -- A backslash would have begun one of the escapes above.
    have hne : c ≠ '\\' := by
      rintro rfl
      cases rest with
      | nil => exact hlast rfl rfl
      | cons c rest => exact hescape c rest rfl rfl
    rw [mostOpen_inside hquote hne]
    exact ih.returning

/-! ## Values -/

section Values

variable {fuel : Nat}

/-- A bracket that opens below as many levels as the reader admits. -/
theorem fits_tooDeep {α : Type} {c : Char} {left : Nat} (hc : c = '[' ∨ c = '\x7b') (isArray : Bool) :
    Fits (mostOpen .outside held (c :: rest)) (held + 0) held
      (.error ⟨.tooDeep isArray, left⟩ : Except Stop (α × List Char)) := by
  intro _ _
  rw [mostOpen_opening hc]
  exact le_mostOpen ..

/-- Brackets without content between them. -/
theorem fits_empty {α : Type} {first last : Char} {found : α} (hfirst : first = '[' ∨ first = '\x7b')
    (hlast : last = ']' ∨ last = '\x7d') (hrest : skipSpaces rest = last :: tail) :
    Fits (mostOpen .outside held (first :: rest)) levels held (.ok (found, tail)) := by
  have hle : mostOpen .outside held tail ≤ mostOpen .outside (held + 1) (skipSpaces rest) :=
    hrest ▸ mostOpen_le_closing hlast
  rw [mostOpen_opening hfirst, ← mostOpen_skipSpaces]
  exact hle

variable (d fuel) in
/-- What the readers do to the brackets with so much fuel; the items and the members begin behind an
opening bracket, and end behind the closing one. -/
structure FitsWithin : Prop where
  value : ∀ held levels text,
    Fits (mostOpen .outside held text) (held + levels) held (readValue d fuel levels text)
  items : ∀ held levels text,
    Fits (mostOpen .outside (held + 1) text) (held + 1 + levels) held (readItems d fuel levels text)
  members : ∀ held levels before text,
    Fits (mostOpen .outside (held + 1) text) (held + 1 + levels) held
      (readMembers d fuel levels before text)

/-- A value closes the brackets that it opens. -/
theorem fits_readValue (ih : FitsWithin d fuel) (held levels : Nat) (text : List Char) :
    Fits (mostOpen .outside held text) (held + levels) held (readValue d (fuel + 1) levels text) := by
  rw [readValue.eq_def]
  dsimp only
  split
  · -- A string.
    rw [mostOpen_quote]
    exact (fits_readString _).returning
  · -- An array; each level of the reader goes with one open bracket.
    split
    · next hrest =>
      split
      · exact fits_tooDeep (.inl rfl) true
      · exact fits_empty (.inl rfl) (.inl rfl) hrest
    · next hrest _ => exact fits_empty (.inl rfl) (.inl rfl) hrest
    · exact fits_tooDeep (.inl rfl) true
    · next rest _ _ levels _ =>
      rw [mostOpen_opening (.inl rfl), ← mostOpen_skipSpaces, Nat.succ_eq_one_add,
        ← Nat.add_assoc]
      exact (ih.items held levels _).returning
  · -- An object.
    split
    · next hrest =>
      split
      · exact fits_tooDeep (.inr rfl) false
      · exact fits_empty (.inr rfl) (.inr rfl) hrest
    · next hrest _ => exact fits_empty (.inr rfl) (.inr rfl) hrest
    · exact fits_tooDeep (.inr rfl) false
    · next rest _ _ levels _ =>
      rw [mostOpen_opening (.inr rfl), ← mostOpen_skipSpaces, Nat.succ_eq_one_add,
        ← Nat.add_assoc]
      exact (ih.members held levels [] _).returning
  · exact fits_readPlain

/-- The items of an array end behind its closing bracket. -/
theorem fits_readItems (ih : FitsWithin d fuel) (held levels : Nat) (text : List Char) :
    Fits (mostOpen .outside (held + 1) text) (held + 1 + levels) held
      (readItems d (fuel + 1) levels text) := by
  rw [readItems]
  refine (ih.value (held + 1) levels text).bind fun item rest hrest => ?_
  -- Behind an item stands the closing bracket, or a comma and further items.
  rw [← mostOpen_skipSpaces] at hrest
  dsimp only
  split
  · next tail heq =>
    rw [heq] at hrest
    exact Nat.le_trans (mostOpen_le_closing (.inl rfl)) hrest
  · next tail heq =>
    rw [heq, mostOpen_filler rfl, ← mostOpen_skipSpaces] at hrest
    exact ((ih.items held levels _).mono hrest).returning
  · exact fits_error nofun

/-- The members of an object end behind its closing bracket. -/
theorem fits_readMembers (ih : FitsWithin d fuel) (held levels : Nat)
    (before : List (String × Json)) (text : List Char) :
    Fits (mostOpen .outside (held + 1) text) (held + 1 + levels) held
      (readMembers d (fuel + 1) levels before text) := by
  rw [readMembers.eq_def]
  dsimp only
  split
  · rw [mostOpen_quote]
    -- A name, a colon, a value, and then the closing bracket or a comma and further members.
    refine (fits_readString _).bind fun name rest hrest => ?_
    rw [← mostOpen_skipSpaces] at hrest
    dsimp only
    split
    · next rest heq =>
      rw [heq, mostOpen_filler rfl, ← mostOpen_skipSpaces] at hrest
      refine ((ih.value (held + 1) levels _).mono hrest).bind fun value rest hrest => ?_
      rw [← mostOpen_skipSpaces] at hrest
      dsimp only
      split
      · next tail heq =>
        rw [heq] at hrest
        exact Nat.le_trans (mostOpen_le_closing (.inr rfl)) hrest
      · next tail heq =>
        rw [heq, mostOpen_filler rfl, ← mostOpen_skipSpaces] at hrest
        exact (ih.members held levels _ _).mono hrest
      · exact fits_error nofun
    · exact fits_error nofun
  · exact fits_error nofun

/-- The readers fit the brackets of a text, with any amount of fuel. -/
theorem fitsWithin (d : Dialect) (fuel : Nat) : FitsWithin d fuel := by
  induction fuel with
  | zero => exact ⟨fun _ _ _ => fits_error nofun, fun _ _ _ => fits_error nofun,
      fun _ _ _ _ => fits_error nofun⟩
  | succ fuel ih => exact ⟨fits_readValue ih, fits_readItems ih, fits_readMembers ih⟩

end Values

/-- A reader complains of depth only about a text that nests deeper than the levels it admits. -/
theorem lt_nesting_of_tooDeep {text : String} {stop : Stop} {isArray : Bool}
    (h : readChars d text.toList = .error stop) (hstop : stop.complaint = .tooDeep isArray) :
    d.maxLevels < nesting text := by
  -- No bracket stands open before the value.
  have hvalue := (fitsWithin d (2 * text.toList.length + 2)).value 0 d.maxLevels
    (skipSpaces text.toList)
  rw [Nat.zero_add, mostOpen_skipSpaces] at hvalue
  rw [readChars] at h
  split at h
  · cases h
    cases hstop
  · obtain hread | ⟨⟨value, rest⟩, -, h⟩ := Result.bind_eq_error.mp h
    · rw [hread] at hvalue
      exact hvalue isArray hstop
    · dsimp only at h
      split at h
      · cases h
      · cases h
        cases hstop

end RecordStore.Json
