import RecordStore.Proofs.Json.Number
import RecordStore.Proofs.Json.Strings
import RecordStore.Proofs.Result

/-!
# Reading what was written

What a reader makes of the text of a value is told by the value alone (`reread?`): a value without too
many digits or levels comes back as it is, except that its doubles are what their own texts are read
as. Every other value is refused. That the reader does this is proved along the value, for any rest
behind its text (`readsBack`).
-/

namespace RecordStore

/-- What holds of each value if it holds of an array or object as soon as of all that is in it. -/
theorem Json.induct {motive : Json → Prop} (null : motive .null) (boolean : ∀ b, motive (.boolean b))
    (integer : ∀ n, motive (.integer n)) (double : ∀ x, motive (.double x))
    (string : ∀ s, motive (.string s))
    (array : ∀ items, (∀ item ∈ items, motive item) → motive (.array items))
    (object : ∀ members, (∀ member ∈ members, motive member.2) → motive (.object members))
    (j : Json) : motive j :=
  Json.rec (motive_2 := fun items => ∀ item ∈ items, motive item)
    (motive_3 := fun members => ∀ member ∈ members, motive member.2)
    (motive_4 := fun member => motive member.2) null boolean integer double string array object
    (List.forall_mem_nil _) (fun _ _ hitem hitems => List.forall_mem_cons.mpr ⟨hitem, hitems⟩)
    (List.forall_mem_nil _) (fun _ _ hmember hmembers => List.forall_mem_cons.mpr ⟨hmember, hmembers⟩)
    (fun _ _ hvalue => hvalue) j

namespace Json

/-! ## What comes back -/

section

variable (d : Dialect) (f : Double → Json)

mutual

/-- What is read of the text of a value below which so many levels may lie, if `f` tells it of
doubles. -/
def reread? (levels : Nat) : Json → Option Json
  | .null => some .null
  | .boolean b => some (.boolean b)
  | .integer n =>
    if Number.maxDigits < (Nat.toDigits 10 n.natAbs).length then none
    else some (.integer n)
  | .double x => some (f x)
  | .string s => some (.string s)
  | .array items =>
    match levels with
    | 0 => if items.isEmpty && !d.countsEmpty then some (.array []) else none
    | levels + 1 => (rereadItems? levels items).map .array
  | .object members =>
    match levels with
    | 0 => if members.isEmpty && !d.countsEmpty then some (.object []) else none
    | levels + 1 => (rereadMembers? levels [] members).map .object

/-- What is read of the items of an array. -/
def rereadItems? (levels : Nat) : List Json → Option (List Json)
  | [] => some []
  | item :: items => do return (← reread? levels item) :: (← rereadItems? levels items)

/-- What is read of further members of an object, after those that were read before. -/
def rereadMembers? (levels : Nat) (before : List (String × Json)) :
    List (String × Json) → Option (List (String × Json))
  | [] => some before
  | (name, value) :: members => do
    rereadMembers? levels (addMember d name (← reread? levels value) before) members

end

end

/-- A style writes characters beyond ASCII as they are, and a dialect reads its doubles as `f`
tells. -/
structure Rereads (d : Dialect) (style : Style) (f : Double → Json) : Prop where
  ascii : style.ascii = false
  begins : ∀ x, ∃ c tail, (style.doubles.write x).toList = c :: tail ∧ beginsPlain c
  reads : ∀ x {rest}, endsNumber rest →
    readPlain ((style.doubles.write x).toList ++ rest) = .ok (f x, rest)

variable {d : Dialect} {style : Style} {f : Double → Json}

/-- In plain texts every double comes back, also one that is written as a word. -/
theorem rereads_plain (d : Dialect) : Rereads d plain .double where
  ascii := rfl
  begins x := by
    cases x with
    | nan => exact ⟨'N', _, rfl, rfl⟩
    | infinite negative =>
      cases negative with
      | false => exact ⟨'I', _, rfl, rfl⟩
      | true => exact ⟨'-', _, rfl, rfl⟩
    | finite negative exponent fraction => exact exists_write_finite_eq ..
  reads x rest hrest := by
    cases x with
    | nan => rfl
    | infinite negative => cases negative <;> rfl
    | finite negative exponent fraction => exact readPlain_write_finite _ _ _ _ hrest

/-! ## How a text begins -/

theorem writeOnto_string (style : Style) (rest : List Char) (s : String) :
    writeOnto style rest (.string s) = writeString style s ++ rest := rfl

theorem writeOnto_array_nil (style : Style) (rest : List Char) :
    writeOnto style rest (.array []) = '[' :: ']' :: rest := rfl

theorem writeOnto_array_cons (style : Style) (rest : List Char) (item : Json) (items : List Json) :
    writeOnto style rest (.array (item :: items)) =
      '[' :: writeOnto style (writeItems style (']' :: rest) items) item := rfl

theorem writeOnto_object_nil (style : Style) (rest : List Char) :
    writeOnto style rest (.object []) = '\x7b' :: '\x7d' :: rest := rfl

/-- The text of a member of an object. -/
def writeMember (style : Style) (rest : List Char) (member : String × Json) : List Char :=
  writeString style member.1 ++ ':' :: writeOnto style rest member.2

theorem writeOnto_object_cons (style : Style) (rest : List Char) (member : String × Json)
    (members : List (String × Json)) :
    writeOnto style rest (.object (member :: members)) =
      '\x7b' :: writeMember style (writeMembers style ('\x7d' :: rest) members) member := rfl

theorem writeMembers_cons (style : Style) (rest : List Char) (member : String × Json)
    (members : List (String × Json)) :
    writeMembers style rest (member :: members) =
      ',' :: writeMember style (writeMembers style rest members) member := rfl

/-- A member begins with the quotation mark of its name. -/
theorem exists_writeMember_eq (style : Style) (rest : List Char) (member : String × Json) :
    ∃ tail, writeMember style rest member = '"' :: tail := ⟨_, rfl⟩

/-- Whether a character may begin a value. -/
def beginsValue (c : Char) : Bool := beginsPlain c || c == '"' || c == '[' || c == '\x7b'

/-- No value begins with a space. -/
theorem isSpace_of_beginsValue {c : Char} (h : beginsValue c) : isSpace c = false := by
  rw [← Bool.not_eq_true]
  intro hspace
  simp only [isSpace, Bool.or_eq_true, decide_eq_true_eq] at hspace
  rcases hspace with ((rfl | rfl) | rfl) | rfl <;> cases h

/-- Before a value there is no space to skip. -/
theorem skipSpaces_of_beginsValue {c : Char} (h : beginsValue c) (tail : List Char) :
    skipSpaces (c :: tail) = c :: tail := by
  rw [skipSpaces, List.dropWhile_cons_of_neg]
  rw [isSpace_of_beginsValue h]
  exact Bool.false_ne_true

/-- A word or a number is a value. -/
theorem beginsValue_of_beginsPlain {c : Char} (h : beginsPlain c) : beginsValue c := by
  simp [beginsValue, h]

/-- The text of a whole number begins like one. -/
theorem exists_toString_eq (n : Int) : ∃ c tail, (toString n).toList = c :: tail ∧ beginsPlain c := by
  obtain ⟨c, others, hn, hc, -⟩ := exists_toDigits_eq n.natAbs
  rw [toList_toString_int, hn]
  split
  · exact ⟨'-', c :: others, rfl, rfl⟩
  · exact ⟨c, others, rfl, beginsPlain_of_isDigit hc⟩

/-- The text of a value begins like one. -/
theorem exists_writeOnto_eq (h : Rereads d style f) (j : Json) (rest : List Char) :
    ∃ c tail, writeOnto style rest j = c :: tail ∧ beginsValue c := by
  have hplain {text : List Char} (htext : ∃ c tail, text = c :: tail ∧ beginsPlain c) :
      ∃ c tail, text ++ rest = c :: tail ∧ beginsValue c := by
    obtain ⟨c, tail, rfl, hc⟩ := htext
    exact ⟨c, tail ++ rest, rfl, beginsValue_of_beginsPlain hc⟩
  match j with
  | .null => exact hplain ⟨'n', _, rfl, rfl⟩
  | .boolean false => exact hplain ⟨'f', _, rfl, rfl⟩
  | .boolean true => exact hplain ⟨'t', _, rfl, rfl⟩
  | .integer n => exact hplain (exists_toString_eq n)
  | .double x => exact hplain (h.begins x)
  | .string s => exact ⟨'"', _, rfl, rfl⟩
  | .array [] | .array (item :: items) => exact ⟨'[', _, rfl, rfl⟩
  | .object [] | .object (member :: members) => exact ⟨'\x7b', _, rfl, rfl⟩

theorem length_le_append (text : List Char) {tail rest : List Char} (h : rest.length ≤ tail.length) :
    rest.length ≤ (text ++ tail).length := by
  rw [List.length_append]
  omega

/-- Items are written in front of what follows them. -/
theorem length_le_writeItems {items : List Json}
    (hitems : ∀ item ∈ items, ∀ rest, rest.length ≤ (writeOnto style rest item).length)
    (rest : List Char) : rest.length ≤ (writeItems style rest items).length := by
  induction items with
  | nil => exact le_rfl
  | cons item items ih =>
    obtain ⟨hitem, hmore⟩ := List.forall_mem_cons.mp hitems
    rw [writeItems]
    exact length_le_append [','] ((ih hmore).trans (hitem _))

theorem length_le_writeMember (style : Style) (rest : List Char) (member : String × Json) :
    (writeOnto style rest member.2).length ≤ (writeMember style rest member).length :=
  length_le_append _ (length_le_append [':'] le_rfl)

theorem length_le_writeMembers {members : List (String × Json)}
    (hmembers : ∀ member ∈ members, ∀ rest, rest.length ≤ (writeOnto style rest member.2).length)
    (rest : List Char) : rest.length ≤ (writeMembers style rest members).length := by
  induction members with
  | nil => exact le_rfl
  | cons member members ih =>
    obtain ⟨hmember, hmore⟩ := List.forall_mem_cons.mp hmembers
    rw [writeMembers_cons]
    exact length_le_append [','] (((ih hmore).trans (hmember _)).trans (length_le_writeMember ..))

/-- A text is no shorter than what stands behind its value. -/
theorem length_le_writeOnto (style : Style) (j : Json) (rest : List Char) :
    rest.length ≤ (writeOnto style rest j).length := by
  induction j using Json.induct generalizing rest with
  | null => exact length_le_append _ le_rfl
  | boolean b => cases b <;> exact length_le_append _ le_rfl
  | integer n => exact length_le_append _ le_rfl
  | double x => exact length_le_append _ le_rfl
  | string s => exact length_le_append _ le_rfl
  | array items hitems =>
    cases items with
    | nil => exact length_le_append ['[', ']'] le_rfl
    | cons item items =>
      obtain ⟨hitem, hmore⟩ := List.forall_mem_cons.mp hitems
      have hrest := (length_le_append [']'] le_rfl).trans (length_le_writeItems hmore (']' :: rest))
      rw [writeOnto_array_cons]
      exact length_le_append ['['] (hrest.trans (hitem _))
  | object members hmembers =>
    cases members with
    | nil => exact length_le_append ['\x7b', '\x7d'] le_rfl
    | cons member members =>
      obtain ⟨hmember, hmore⟩ := List.forall_mem_cons.mp hmembers
      have hrest := (length_le_append ['\x7d'] le_rfl).trans (length_le_writeMembers hmore ('\x7d' :: rest))
      rw [writeOnto_object_cons]
      exact length_le_append ['\x7b'] ((hrest.trans (hmember _)).trans (length_le_writeMember ..))

/-! ## Arrays and objects -/

variable {fuel levels : Nat} {rest : List Char}

/-- Nothing of a value stands between the brackets of an empty array. -/
theorem readValue_array_nil :
    (readValue d (fuel + 1) levels ('[' :: ']' :: rest)).toOption =
      (reread? d f levels (.array [])).map (·, rest) := by
  have hspaces : skipSpaces (']' :: rest) = ']' :: rest := rfl
  cases levels with
  | zero =>
    simp only [readValue, hspaces, reread?]
    cases d.countsEmpty <;> rfl
  | succ levels =>
    simp only [readValue, hspaces]
    rfl

/-- An array with content needs a level below it. -/
theorem readValue_array_zero {c : Char} {tail : List Char} (hc : beginsValue c) :
    (readValue d (fuel + 1) 0 ('[' :: c :: tail)).toOption = none := by
  have hne : c ≠ ']' := by
    rintro rfl
    cases hc
  simp only [readValue, skipSpaces_of_beginsValue hc]
  split
  · next h _ => exact absurd (List.cons.inj h).1 hne
  · next h _ => exact absurd (List.cons.inj h).1 hne
  · rfl
  · next h _ => cases h

/-- A bracket before a value opens an array of a level. -/
theorem readValue_array_succ {c : Char} {tail : List Char} (hc : beginsValue c) :
    readValue d (fuel + 1) (levels + 1) ('[' :: c :: tail) =
      (readItems d fuel levels (c :: tail)).map fun read => (.array read.1, read.2) := by
  have hne : c ≠ ']' := by
    rintro rfl
    cases hc
  simp only [readValue, skipSpaces_of_beginsValue hc]
  split
  · next h _ => exact absurd (List.cons.inj h).1 hne
  · next h _ => exact absurd (List.cons.inj h).1 hne
  · next h _ => cases h
  · next h _ =>
    cases h
    rfl

/-- Nothing of a value stands between the brackets of an empty object. -/
theorem readValue_object_nil :
    (readValue d (fuel + 1) levels ('\x7b' :: '\x7d' :: rest)).toOption =
      (reread? d f levels (.object [])).map (·, rest) := by
  have hspaces : skipSpaces ('\x7d' :: rest) = '\x7d' :: rest := rfl
  cases levels with
  | zero =>
    simp only [readValue, hspaces, reread?]
    cases d.countsEmpty <;> rfl
  | succ levels =>
    simp only [readValue, hspaces]
    rfl

/-- An object with content needs a level below it. -/
theorem readValue_object_zero {tail : List Char} :
    (readValue d (fuel + 1) 0 ('\x7b' :: '"' :: tail)).toOption = none := by
  have hspaces : skipSpaces ('"' :: tail) = '"' :: tail := rfl
  simp only [readValue, hspaces]
  rfl

/-- A brace before a quotation mark opens an object of a level. -/
theorem readValue_object_succ {tail : List Char} :
    readValue d (fuel + 1) (levels + 1) ('\x7b' :: '"' :: tail) =
      (readMembers d fuel levels [] ('"' :: tail)).map fun read => (.object read.1, read.2) := by
  have hspaces : skipSpaces ('"' :: tail) = '"' :: tail := rfl
  simp only [readValue, hspaces]
  rfl

/-- The reader does with the text of a value what is told of the value. -/
def ReadsBack (d : Dialect) (style : Style) (f : Double → Json) (j : Json) : Prop :=
  ∀ (fuel levels : Nat) (rest : List Char),
    2 * (writeOnto style rest j).length ≤ fuel + 1 → endsNumber rest →
      (readValue d fuel levels (writeOnto style rest j)).toOption =
        (reread? d f levels j).map (·, rest)

/-- A written value begins with no space. -/
theorem skipSpaces_writeOnto (h : Rereads d style f) (j : Json) (rest : List Char) :
    skipSpaces (writeOnto style rest j) = writeOnto style rest j := by
  obtain ⟨c, tail, htext, hc⟩ := exists_writeOnto_eq h j rest
  rw [htext, skipSpaces_of_beginsValue hc]

theorem skipSpaces_writeMember (style : Style) (rest : List Char) (member : String × Json) :
    skipSpaces (writeMember style rest member) = writeMember style rest member := by
  obtain ⟨tail, htext⟩ := exists_writeMember_eq style rest member
  rw [htext]
  rfl

/-- A value takes a step of the reader. -/
theorem exists_fuel_eq (h : Rereads d style f) {j : Json}
    (hfuel : 2 * (writeOnto style rest j).length ≤ fuel) : ∃ k, fuel = k + 1 := by
  obtain ⟨c, tail, htext, -⟩ := exists_writeOnto_eq h j rest
  rw [htext, List.length_cons] at hfuel
  exact ⟨fuel - 1, by omega⟩

section

variable {text tail : List Char} {value : Option Json}

/-- Behind the last item of an array stands its closing bracket. -/
theorem readItems_last
    (hvalue : (readValue d fuel levels text).toOption = value.map (·, ']' :: rest)) :
    (readItems d (fuel + 1) levels text).toOption = value.map fun v => ([v], rest) := by
  rw [readItems, Result.toOption_bind, hvalue]
  cases value <;> rfl

/-- Behind every other item stands a comma, and then the items that follow. -/
theorem readItems_next (htail : skipSpaces tail = tail)
    (hvalue : (readValue d fuel levels text).toOption = value.map (·, ',' :: tail)) :
    (readItems d (fuel + 1) levels text).toOption = value.bind fun v =>
      (readItems d fuel levels tail).toOption.map fun read => (v :: read.1, read.2) := by
  rw [readItems, Result.toOption_bind, hvalue]
  cases value with
  | none => rfl
  | some v =>
    change (readItems d fuel levels (skipSpaces tail) >>= fun read =>
      .ok (v :: read.1, read.2)).toOption = _
    rw [htail, Result.toOption_bind]
    exact (Option.map_eq_bind ..).symm

/-- Behind the last member of an object stands its closing bracket. -/
theorem readMembers_last (h : Rereads d style f) (before : List (String × Json)) {member : String × Json}
    (hvalue : (readValue d fuel levels (writeOnto style ('\x7d' :: rest) member.2)).toOption =
      value.map (·, '\x7d' :: rest)) :
    (readMembers d (fuel + 1) levels before (writeMember style ('\x7d' :: rest) member)).toOption =
      value.map fun v => (addMember d member.1 v before, rest) := by
  rw [writeMember, writeString_append h.ascii, readMembers, readString_flatMap]
  change (readValue d fuel levels (skipSpaces (writeOnto style _ member.2)) >>= _).toOption = _
  rw [skipSpaces_writeOnto h, Result.toOption_bind, hvalue, String.ofList_toList]
  cases value <;> rfl

/-- Behind every other member stands a comma, and then the members that follow. -/
theorem readMembers_next (h : Rereads d style f) (before : List (String × Json)) {member : String × Json}
    (htail : skipSpaces tail = tail)
    (hvalue : (readValue d fuel levels (writeOnto style (',' :: tail) member.2)).toOption =
      value.map (·, ',' :: tail)) :
    (readMembers d (fuel + 1) levels before (writeMember style (',' :: tail) member)).toOption =
      value.bind fun v => (readMembers d fuel levels (addMember d member.1 v before) tail).toOption := by
  rw [writeMember, writeString_append h.ascii, readMembers, readString_flatMap]
  change (readValue d fuel levels (skipSpaces (writeOnto style _ member.2)) >>= _).toOption = _
  rw [skipSpaces_writeOnto h, Result.toOption_bind, hvalue, String.ofList_toList]
  cases value with
  | none => rfl
  | some v =>
    change (readMembers d fuel levels (addMember d member.1 v before) (skipSpaces tail)).toOption = _
    rw [htail]
    rfl

end

/-- The items of an array are read one by one. -/
theorem readItems_write (levels : Nat) (h : Rereads d style f) {item : Json} {items : List Json}
    (hitems : ∀ i ∈ item :: items, ReadsBack d style f i)
    (hfuel : 2 * (writeOnto style (writeItems style (']' :: rest) items) item).length ≤ fuel) :
    (readItems d fuel levels (writeOnto style (writeItems style (']' :: rest) items) item)).toOption =
      (rereadItems? d f levels (item :: items)).map (·, rest) := by
  induction items generalizing item fuel with
  | nil =>
    obtain ⟨fuel, rfl⟩ := exists_fuel_eq h hfuel
    have hvalue := hitems item List.mem_cons_self fuel levels _ hfuel rfl
    rw [writeItems] at hvalue ⊢
    rw [readItems_last hvalue, rereadItems?]
    cases reread? d f levels item <;> rfl
  | cons next items ih =>
    obtain ⟨fuel, rfl⟩ := exists_fuel_eq h hfuel
    obtain ⟨hitem, hmore⟩ := List.forall_mem_cons.mp hitems
    have hvalue := hitem fuel levels _ hfuel rfl
    have hlength := length_le_writeOnto style item (writeItems style (']' :: rest) (next :: items))
    rw [writeItems] at hfuel hvalue hlength ⊢
    rw [List.length_cons] at hlength
    rw [readItems_next (skipSpaces_writeOnto h next _) hvalue, rereadItems?, ih hmore (by omega)]
    cases reread? d f levels item with
    | none => rfl
    | some v => cases rereadItems? d f levels (next :: items) <;> rfl

/-- The members of an object are read one by one, each by its name, a colon and its value. -/
theorem readMembers_write (levels : Nat) (before : List (String × Json)) (h : Rereads d style f)
    {member : String × Json} {members : List (String × Json)}
    (hmembers : ∀ m ∈ member :: members, ReadsBack d style f m.2)
    (hfuel : 2 * (writeOnto style (writeMembers style ('\x7d' :: rest) members) member.2).length ≤ fuel) :
    (readMembers d fuel levels before
        (writeMember style (writeMembers style ('\x7d' :: rest) members) member)).toOption =
      (rereadMembers? d f levels before (member :: members)).map (·, rest) := by
  induction members generalizing member before fuel with
  | nil =>
    obtain ⟨fuel, rfl⟩ := exists_fuel_eq h hfuel
    have hvalue := hmembers member List.mem_cons_self fuel levels _ hfuel rfl
    rw [writeMembers] at hvalue ⊢
    rw [readMembers_last h before hvalue, rereadMembers?]
    cases reread? d f levels member.2 <;> rfl
  | cons next members ih =>
    obtain ⟨fuel, rfl⟩ := exists_fuel_eq h hfuel
    obtain ⟨hmember, hmore⟩ := List.forall_mem_cons.mp hmembers
    have hvalue := hmember fuel levels _ hfuel rfl
    -- What follows the value is no longer than the text, so the fuel is enough for it.
    have hlength := length_le_writeOnto style member.2 (writeMembers style ('\x7d' :: rest) (next :: members))
    have hname := length_le_writeMember style (writeMembers style ('\x7d' :: rest) members) next
    rw [writeMembers_cons] at hfuel hvalue hlength ⊢
    rw [List.length_cons] at hlength
    rw [readMembers_next h before (skipSpaces_writeMember ..) hvalue, rereadMembers?]
    cases reread? d f levels member.2 with
    | none => rfl
    | some v => exact ih (addMember d member.1 v before) hmore (by omega)

/-! ## Values -/

/-- A text that begins like a word or a number is read as one. -/
theorem readsBack_of_beginsPlain {j : Json} {text : List Char}
    (htext : ∀ rest, writeOnto style rest j = text ++ rest)
    (hbegins : ∃ c tail, text = c :: tail ∧ beginsPlain c)
    (hread : ∀ {rest}, endsNumber rest → ∀ levels,
      (readPlain (text ++ rest)).toOption = (reread? d f levels j).map (·, rest)) :
    ReadsBack d style f j := by
  intro fuel levels rest hfuel hrest
  obtain ⟨c, tail, rfl, hc⟩ := hbegins
  rw [htext, List.cons_append, List.length_cons] at hfuel
  obtain ⟨fuel, rfl⟩ : ∃ k, fuel = k + 1 := ⟨fuel - 1, by omega⟩
  rw [htext, ← hread hrest levels, List.cons_append, readValue_of_beginsPlain hc]

/-- An array is read back if its items are. -/
theorem readsBack_array (h : Rereads d style f) {items : List Json}
    (hitems : ∀ item ∈ items, ReadsBack d style f item) : ReadsBack d style f (.array items) := by
  intro fuel levels rest hfuel hrest
  cases items with
  | nil =>
    rw [writeOnto_array_nil, List.length_cons] at hfuel
    obtain ⟨fuel, rfl⟩ : ∃ k, fuel = k + 1 := ⟨fuel - 1, by omega⟩
    exact readValue_array_nil
  | cons item items =>
    obtain ⟨c, tail, htext, hc⟩ := exists_writeOnto_eq h item (writeItems style (']' :: rest) items)
    rw [writeOnto_array_cons, List.length_cons] at hfuel
    obtain ⟨fuel, rfl⟩ : ∃ k, fuel = k + 1 := ⟨fuel - 1, by omega⟩
    -- The bracket takes one round, and the items have what they need.
    have hfuel' : 2 * (writeOnto style (writeItems style (']' :: rest) items) item).length ≤ fuel := by
      omega
    rw [writeOnto_array_cons]
    cases levels with
    | zero =>
      rw [htext, readValue_array_zero hc]
      rfl
    | succ levels =>
      have hread := readItems_write levels h hitems hfuel'
      rw [htext] at hread ⊢
      rw [readValue_array_succ hc, Result.toOption_map, hread, reread?]
      cases rereadItems? d f levels (item :: items) <;> rfl

/-- An object is read back if the values of its members are. -/
theorem readsBack_object (h : Rereads d style f) {members : List (String × Json)}
    (hmembers : ∀ member ∈ members, ReadsBack d style f member.2) :
    ReadsBack d style f (.object members) := by
  intro fuel levels rest hfuel hrest
  cases members with
  | nil =>
    rw [writeOnto_object_nil, List.length_cons] at hfuel
    obtain ⟨fuel, rfl⟩ : ∃ k, fuel = k + 1 := ⟨fuel - 1, by omega⟩
    exact readValue_object_nil
  | cons member members =>
    have hmember := length_le_writeMember style (writeMembers style ('\x7d' :: rest) members) member
    rw [writeOnto_object_cons, List.length_cons] at hfuel
    obtain ⟨fuel, rfl⟩ : ∃ k, fuel = k + 1 := ⟨fuel - 1, by omega⟩
    obtain ⟨tail, htext⟩ := exists_writeMember_eq style (writeMembers style ('\x7d' :: rest) members) member
    have hfuel' : 2 * (writeOnto style (writeMembers style ('\x7d' :: rest) members)
        member.2).length ≤ fuel := by omega
    rw [writeOnto_object_cons]
    cases levels with
    | zero =>
      rw [htext, readValue_object_zero]
      rfl
    | succ levels =>
      have hread := readMembers_write levels [] h hmembers hfuel'
      rw [htext] at hread ⊢
      rw [readValue_object_succ, Result.toOption_map, hread, reread?]
      cases rereadMembers? d f levels [] (member :: members) <;> rfl

/-- What is read of the text of a value is told by the value. -/
theorem readsBack (h : Rereads d style f) (j : Json) : ReadsBack d style f j := by
  induction j using Json.induct with
  | null => exact readsBack_of_beginsPlain (fun _ => rfl) ⟨'n', _, rfl, rfl⟩ fun _ _ => rfl
  | boolean b =>
    cases b with
    | false => exact readsBack_of_beginsPlain (fun _ => rfl) ⟨'f', _, rfl, rfl⟩ fun _ _ => rfl
    | true => exact readsBack_of_beginsPlain (fun _ => rfl) ⟨'t', _, rfl, rfl⟩ fun _ _ => rfl
  | integer n =>
    refine readsBack_of_beginsPlain (fun _ => rfl) (exists_toString_eq n) fun hrest levels => ?_
    rw [readPlain_toString n hrest, reread?]
    split <;> rfl
  | double x =>
    refine readsBack_of_beginsPlain (fun _ => rfl) (h.begins x) fun hrest levels => ?_
    rw [h.reads x hrest]
    rfl
  | string s =>
    intro fuel levels rest hfuel hrest
    rw [writeOnto_string, writeString_append h.ascii, List.length_cons] at hfuel
    obtain ⟨fuel, rfl⟩ : ∃ k, fuel = k + 1 := ⟨fuel - 1, by omega⟩
    rw [writeOnto_string, writeString_append h.ascii, readValue, readString_flatMap]
    exact congrArg (fun text => some (string text, rest)) String.ofList_toList
  | array items hitems => exact readsBack_array h hitems
  | object members hmembers => exact readsBack_object h hmembers

/-- The whole text of a value begins neither with a mark nor with a space, and is read as a value. -/
theorem readChars_eq (h : Rereads d style f) (j : Json) :
    readChars d (writeOnto style [] j) =
      readValue d (2 * (writeOnto style [] j).length + 2) d.maxLevels (writeOnto style [] j) >>= fun read =>
      if skipSpaces read.2 = [] then .ok read.1 else .error ⟨.extraData, (skipSpaces read.2).length⟩ := by
  obtain ⟨c, tail, htext, hc⟩ := exists_writeOnto_eq h j []
  have hmark : ¬(c :: tail).head? = some (Char.ofNat 0xfeff) := by
    intro hmark
    obtain rfl := Option.some.inj hmark
    cases hc
  rw [htext, readChars, if_neg hmark, skipSpaces_of_beginsValue hc]
  rfl

/-- What is read of the whole text of a value is told by the value. -/
theorem readChars_writeOnto (h : Rereads d style f) (j : Json) :
    (readChars d (writeOnto style [] j)).toOption = reread? d f d.maxLevels j := by
  have hread := readsBack h j (2 * (writeOnto style [] j).length + 2) d.maxLevels [] (by omega) rfl
  rw [readChars_eq h, Result.toOption_bind, hread]
  cases reread? d f d.maxLevels j <;> rfl

/-- A text is read by its characters. -/
theorem toOption_read (text : String) (levels : Nat) :
    (read text levels).toOption = (readChars (.lenient levels) text.toList).toOption := by
  rw [read]
  cases readChars (.lenient levels) text.toList <;> rfl

end Json

end RecordStore
