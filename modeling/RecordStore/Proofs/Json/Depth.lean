import RecordStore.Proofs.Json.RoundTrip

/-!
# The depth of JSON values

A value that has neither too long numbers nor repeated names is readable. Its text is read back as
the value (`Json.read_write`), unless arrays and objects lie inside each other beyond what the reader
admits; then that is what the reader complains about (`Json.read_write_of_deep`).
-/

namespace RecordStore.Json

/-! ## Depth -/

mutual

/-- The number of arrays and objects that lie inside each other. -/
def depth : Json → Nat
  | .array items => itemsDepth items + 1
  | .object members => membersDepth members + 1
  | _ => 0

/-- The depth of the deepest item. -/
def itemsDepth : List Json → Nat
  | [] => 0
  | item :: items => max (depth item) (itemsDepth items)

/-- The depth of the deepest value of a member. -/
def membersDepth : List (String × Json) → Nat
  | [] => 0
  | (_, value) :: members => max (depth value) (membersDepth members)

end

/-- A value that a reader takes as far as its depth allows: no whole number has too many digits, and
no object has a name twice. -/
inductive Readable : Json → Prop
  | null : Readable .null
  | boolean (b : Bool) : Readable (.boolean b)
  | integer {n : Int} (short : n.natAbs < 10 ^ Number.maxDigits) : Readable (.integer n)
  | double (x : Double) : Readable (.double x)
  | string (s : String) : Readable (.string s)
  | array {items : List Json} (items_readable : ∀ item ∈ items, Readable item) :
      Readable (.array items)
  | object {members : List (String × Json)} (distinct : (members.map Prod.fst).Nodup)
      (values : ∀ member ∈ members, Readable member.2) : Readable (.object members)

/-- Reading keeps a value that is no deeper than so many levels, and refuses it otherwise; how many
levels a whole text may have does not matter. -/
def KeepsWithin (room levels : Nat) (j : Json) : Prop :=
  reread? (.lenient room) .double levels j = if j.depth ≤ levels then some j else none

variable {room : Nat}

/-- Items are kept if the deepest of them is no deeper than the levels left. -/
theorem rereadItems?_eq {levels : Nat} {items : List Json}
    (h : ∀ item ∈ items, KeepsWithin room levels item) :
    rereadItems? (.lenient room) .double levels items =
      if itemsDepth items ≤ levels then some items else none := by
  induction items with
  | nil => exact (if_pos (Nat.zero_le levels)).symm
  | cons item items ih =>
    obtain ⟨hitem, hitems⟩ := List.forall_mem_cons.mp h
    rw [KeepsWithin] at hitem
    rw [rereadItems?, hitem, ih hitems, itemsDepth]
    by_cases hfirst : item.depth ≤ levels <;> by_cases hrest : itemsDepth items ≤ levels <;>
      simp [hfirst, hrest]

/-- Members with names of their own are read behind those that were read before. -/
theorem rereadMembers?_eq {levels : Nat} {before members : List (String × Json)}
    (hnames : ((before ++ members).map Prod.fst).Nodup)
    (h : ∀ member ∈ members, KeepsWithin room levels member.2) :
    rereadMembers? (.lenient room) .double levels before members =
      if membersDepth members ≤ levels then some (before ++ members) else none := by
  induction members generalizing before with
  | nil =>
    rw [List.append_nil]
    exact (if_pos (Nat.zero_le levels)).symm
  | cons member members ih =>
    obtain ⟨name, value⟩ := member
    obtain ⟨hmember, hmembers⟩ := List.forall_mem_cons.mp h
    rw [KeepsWithin] at hmember
    -- A name that has not been read is added behind the others.
    have hfresh : name ∉ Assoc.keys before := by
      rw [List.map_append, List.map_cons] at hnames
      intro hmem
      exact (List.nodup_append.mp hnames).2.2 _ hmem _ List.mem_cons_self rfl
    have hadd : addMember (.lenient room) name value before = before ++ [(name, value)] :=
      Assoc.put_of_not_mem hfresh value
    have hsame : before ++ (name, value) :: members = before ++ [(name, value)] ++ members := by
      rw [List.append_assoc, List.singleton_append]
    rw [hsame] at hnames ⊢
    rw [rereadMembers?, hmember, membersDepth]
    by_cases hfirst : value.depth ≤ levels
    · rw [if_pos hfirst]
      change rereadMembers? (.lenient room) .double levels (addMember (.lenient room) name value before) members = _
      rw [hadd, ih hnames hmembers]
      by_cases hrest : membersDepth members ≤ levels <;> simp [hfirst, hrest]
    · rw [if_neg hfirst, if_neg (by omega)]
      rfl

/-- Reading keeps a readable value as far as its depth allows. -/
theorem keepsWithin_of_readable {j : Json} (h : Readable j) (levels : Nat) :
    KeepsWithin room levels j := by
  induction h generalizing levels with
  | integer hshort =>
    -- The digits are few enough, whatever the sign is.
    have hlength := (Nat.length_toDigits_le_iff (by decide) (by decide)).mpr hshort
    exact if_neg (Nat.not_lt.mpr hlength)
  | @array items _ ih =>
    rw [KeepsWithin, depth]
    cases levels with
    | zero =>
      rw [reread?, if_neg (Nat.not_succ_le_zero _)]
      exact if_neg (by simp [Dialect.lenient])
    | succ levels =>
      rw [reread?, rereadItems?_eq fun item hitem => ih item hitem levels]
      by_cases hdepth : itemsDepth items ≤ levels <;> simp [hdepth]
  | @object members hdistinct _ ih =>
    rw [KeepsWithin, depth]
    cases levels with
    | zero =>
      rw [reread?, if_neg (Nat.not_succ_le_zero _)]
      exact if_neg (by simp [Dialect.lenient])
    | succ levels =>
      have hnames : (([] ++ members).map Prod.fst).Nodup := hdistinct
      rw [reread?, rereadMembers?_eq hnames fun member hmember => ih member hmember levels]
      by_cases hdepth : membersDepth members ≤ levels <;> simp [hdepth]
  | _ => exact (if_pos (Nat.zero_le levels)).symm

/-! ## Refusals -/

section

variable {d : Dialect} {style : Style} {f : Double → Json} {fuel levels : Nat}
  {rest tail text : List Char} {stop : Stop} {value : Option Json}

/-- Where no level is left, nothing is read behind an opening bracket. -/
theorem readValue_array_error (h : readValue (.lenient room) (fuel + 1) 0 ('[' :: text) = .error stop) :
    stop.complaint = .tooDeep true := by
  simp only [readValue] at h
  split at h
  · obtain rfl := Except.error.inj h
    rfl
  · next hzero => exact (hzero rfl).elim
  · obtain rfl := Except.error.inj h
    rfl
  · next hzero _ => cases hzero

/-- The opening of an object fails only for its depth. -/
theorem readValue_object_error (h : readValue (.lenient room) (fuel + 1) 0 ('\x7b' :: text) = .error stop) :
    stop.complaint = .tooDeep false := by
  simp only [readValue] at h
  split at h
  · obtain rfl := Except.error.inj h
    rfl
  · next hzero => exact (hzero rfl).elim
  · obtain rfl := Except.error.inj h
    rfl
  · next hzero _ => cases hzero

/-- A value that is followed by a text is read up to it, if it is read at all. -/
theorem eq_of_toOption {read : Except Stop (Json × List Char)} {v : Json} {after : List Char}
    (hvalue : read.toOption = value.map (·, rest)) (h : read = .ok (v, after)) : after = rest := by
  rw [h] at hvalue
  cases value with
  | none => cases hvalue
  | some w => exact (Prod.mk.inj (Option.some.inj hvalue)).2

/-- A failure at the last item is the failure of its value. -/
theorem readItems_error_last
    (hvalue : (readValue d fuel levels text).toOption = value.map (·, ']' :: rest))
    (h : readItems d (fuel + 1) levels text = .error stop) :
    readValue d fuel levels text = .error stop := by
  rw [readItems] at h
  obtain hfirst | ⟨⟨v, after⟩, hv, h⟩ := Result.bind_eq_error.mp h
  · exact hfirst
  · obtain rfl := eq_of_toOption hvalue hv
    cases h

/-- A failure at an item is the failure of its value, or of the items behind it. -/
theorem readItems_error_next (htail : skipSpaces tail = tail)
    (hvalue : (readValue d fuel levels text).toOption = value.map (·, ',' :: tail))
    (h : readItems d (fuel + 1) levels text = .error stop) :
    readValue d fuel levels text = .error stop ∨ readItems d fuel levels tail = .error stop := by
  rw [readItems] at h
  obtain hfirst | ⟨⟨v, after⟩, hv, h⟩ := Result.bind_eq_error.mp h
  · exact .inl hfirst
  · obtain rfl := eq_of_toOption hvalue hv
    change (readItems d fuel levels (skipSpaces tail) >>= _) = _ at h
    rw [htail] at h
    obtain hrest | ⟨_, -, ⟨⟩⟩ := Result.bind_eq_error.mp h
    exact .inr hrest

/-- A failure at the last member is the failure of its value. -/
theorem readMembers_error_last (h : Rereads d style f) (before : List (String × Json))
    {member : String × Json}
    (hvalue : (readValue d fuel levels (writeOnto style ('\x7d' :: rest) member.2)).toOption =
      value.map (·, '\x7d' :: rest))
    (hread : readMembers d (fuel + 1) levels before (writeMember style ('\x7d' :: rest) member) =
      .error stop) :
    readValue d fuel levels (writeOnto style ('\x7d' :: rest) member.2) = .error stop := by
  rw [writeMember, writeString_append h.ascii, readMembers, readString_flatMap] at hread
  change (readValue d fuel levels (skipSpaces (writeOnto style _ member.2)) >>= _) = _ at hread
  rw [skipSpaces_writeOnto h] at hread
  obtain hfirst | ⟨⟨v, after⟩, hv, hread⟩ := Result.bind_eq_error.mp hread
  · exact hfirst
  · obtain rfl := eq_of_toOption hvalue hv
    cases hread

/-- A failure at a member is the failure of its value, or of the members behind it. -/
theorem readMembers_error_next (h : Rereads d style f) (before : List (String × Json))
    {member : String × Json} (htail : skipSpaces tail = tail)
    (hvalue : (readValue d fuel levels (writeOnto style (',' :: tail) member.2)).toOption =
      value.map (·, ',' :: tail))
    (hread : readMembers d (fuel + 1) levels before (writeMember style (',' :: tail) member) =
      .error stop) :
    readValue d fuel levels (writeOnto style (',' :: tail) member.2) = .error stop ∨
      ∃ before, readMembers d fuel levels before tail = .error stop := by
  rw [writeMember, writeString_append h.ascii, readMembers, readString_flatMap] at hread
  change (readValue d fuel levels (skipSpaces (writeOnto style _ member.2)) >>= _) = _ at hread
  rw [skipSpaces_writeOnto h] at hread
  obtain hfirst | ⟨⟨v, after⟩, hv, hread⟩ := Result.bind_eq_error.mp hread
  · exact .inl hfirst
  · obtain rfl := eq_of_toOption hvalue hv
    change readMembers d fuel levels _ (skipSpaces tail) = _ at hread
    rw [htail] at hread
    exact .inr ⟨_, hread⟩

/-- The text of a value is refused for its depth, if at all. -/
def OnlyTooDeep (j : Json) : Prop :=
  ∀ {room fuel levels : Nat} {rest : List Char} {stop : Stop},
    2 * (writeOnto plain rest j).length ≤ fuel + 1 → endsNumber rest →
      readValue (.lenient room) fuel levels (writeOnto plain rest j) = .error stop →
        ∃ isArray, stop.complaint = .tooDeep isArray

/-- Items are refused for their depth, if at all. -/
theorem onlyTooDeep_items {item : Json} {items : List Json}
    (hitems : ∀ i ∈ item :: items, OnlyTooDeep i)
    (hfuel : 2 * (writeOnto plain (writeItems plain (']' :: rest) items) item).length ≤ fuel)
    (h : readItems (.lenient room) fuel levels (writeOnto plain (writeItems plain (']' :: rest) items) item) =
      .error stop) :
    ∃ isArray, stop.complaint = .tooDeep isArray := by
  have hplain := rereads_plain (.lenient room)
  induction items generalizing item fuel with
  | nil =>
    obtain ⟨fuel, rfl⟩ := exists_fuel_eq hplain hfuel
    have hvalue := readsBack hplain item fuel levels _ hfuel rfl
    rw [writeItems] at hvalue h hfuel
    exact hitems item List.mem_cons_self hfuel rfl (readItems_error_last hvalue h)
  | cons next items ih =>
    obtain ⟨fuel, rfl⟩ := exists_fuel_eq hplain hfuel
    obtain ⟨hitem, hmore⟩ := List.forall_mem_cons.mp hitems
    have hvalue := readsBack hplain item fuel levels _ hfuel rfl
    have hlength := length_le_writeOnto plain item (writeItems plain (']' :: rest) (next :: items))
    rw [writeItems] at hfuel hvalue hlength h
    rw [List.length_cons] at hlength
    -- hrest|Either this item is too deep, or one behind it.
    obtain hfirst | hrest := readItems_error_next (skipSpaces_writeOnto hplain next _) hvalue h
    · exact hitem hfuel rfl hfirst
    · exact ih hmore (by omega) hrest

/-- Members are refused for their depth, if at all. -/
theorem onlyTooDeep_members (before : List (String × Json)) {member : String × Json}
    {members : List (String × Json)} (hmembers : ∀ m ∈ member :: members, OnlyTooDeep m.2)
    (hfuel : 2 * (writeOnto plain (writeMembers plain ('\x7d' :: rest) members) member.2).length ≤ fuel)
    (h : readMembers (.lenient room) fuel levels before
      (writeMember plain (writeMembers plain ('\x7d' :: rest) members) member) = .error stop) :
    ∃ isArray, stop.complaint = .tooDeep isArray := by
  have hplain := rereads_plain (.lenient room)
  induction members generalizing member before fuel with
  | nil =>
    obtain ⟨fuel, rfl⟩ := exists_fuel_eq hplain hfuel
    have hvalue := readsBack hplain member.2 fuel levels _ hfuel rfl
    rw [writeMembers] at hvalue h hfuel
    exact hmembers member List.mem_cons_self hfuel rfl (readMembers_error_last hplain before hvalue h)
  | cons next members ih =>
    obtain ⟨fuel, rfl⟩ := exists_fuel_eq hplain hfuel
    obtain ⟨hmember, hmore⟩ := List.forall_mem_cons.mp hmembers
    have hvalue := readsBack hplain member.2 fuel levels _ hfuel rfl
    have hlength := length_le_writeOnto plain member.2 (writeMembers plain ('\x7d' :: rest) (next :: members))
    have hname := length_le_writeMember plain (writeMembers plain ('\x7d' :: rest) members) next
    rw [writeMembers_cons] at hfuel hvalue hlength h
    rw [List.length_cons] at hlength
    -- ⟨before, hrest⟩|Either the value of the member is too deep, or one behind it.
    obtain hfirst | ⟨before, hrest⟩ :=
      readMembers_error_next hplain before (skipSpaces_writeMember ..) hvalue h
    · exact hmember hfuel rfl hfirst
    · exact ih before hmore (by omega) hrest

/-- What is read is not refused. -/
theorem not_error_of_depth_le {j : Json} (h : Readable j) (hdepth : j.depth ≤ levels)
    (hfuel : 2 * (writeOnto plain rest j).length ≤ fuel + 1) (hrest : endsNumber rest) :
    readValue (.lenient room) fuel levels (writeOnto plain rest j) ≠ .error stop := by
  intro herror
  have hread := readsBack (rereads_plain (.lenient room)) j fuel levels rest hfuel hrest
  rw [herror, keepsWithin_of_readable h levels, if_pos hdepth] at hread
  cases hread

theorem onlyTooDeep_array {items : List Json} (hreadable : Readable (.array items))
    (hitems : ∀ item ∈ items, OnlyTooDeep item) : OnlyTooDeep (.array items) := by
  intro room fuel levels rest stop hfuel hrest h
  cases items with
  | nil =>
    cases levels with
    | zero =>
      rw [writeOnto_array_nil, List.length_cons] at hfuel
      obtain ⟨fuel, rfl⟩ : ∃ k, fuel = k + 1 := ⟨fuel - 1, by omega⟩
      exact ⟨true, readValue_array_error h⟩
    | succ levels =>
      exact absurd h (not_error_of_depth_le hreadable (Nat.le_add_left 1 levels) hfuel hrest)
  | cons item items =>
    obtain ⟨c, tail, htext, hc⟩ :=
      exists_writeOnto_eq (rereads_plain (.lenient room)) item (writeItems plain (']' :: rest) items)
    rw [writeOnto_array_cons, List.length_cons] at hfuel
    obtain ⟨fuel, rfl⟩ : ∃ k, fuel = k + 1 := ⟨fuel - 1, by omega⟩
    rw [writeOnto_array_cons] at h
    cases levels with
    | zero => exact ⟨true, readValue_array_error h⟩
    | succ levels =>
      rw [htext, readValue_array_succ hc, ← htext] at h
      exact onlyTooDeep_items hitems (by omega) (Result.map_eq_error.mp h)

theorem onlyTooDeep_object {members : List (String × Json)} (hreadable : Readable (.object members))
    (hmembers : ∀ member ∈ members, OnlyTooDeep member.2) : OnlyTooDeep (.object members) := by
  intro room fuel levels rest stop hfuel hrest h
  cases members with
  | nil =>
    cases levels with
    | zero =>
      rw [writeOnto_object_nil, List.length_cons] at hfuel
      obtain ⟨fuel, rfl⟩ : ∃ k, fuel = k + 1 := ⟨fuel - 1, by omega⟩
      exact ⟨false, readValue_object_error h⟩
    | succ levels =>
      exact absurd h (not_error_of_depth_le hreadable (Nat.le_add_left 1 levels) hfuel hrest)
  | cons member members =>
    have hmember := length_le_writeMember plain (writeMembers plain ('\x7d' :: rest) members) member
    obtain ⟨tail, htext⟩ := exists_writeMember_eq plain (writeMembers plain ('\x7d' :: rest) members) member
    rw [writeOnto_object_cons, List.length_cons] at hfuel
    obtain ⟨fuel, rfl⟩ : ∃ k, fuel = k + 1 := ⟨fuel - 1, by omega⟩
    rw [writeOnto_object_cons] at h
    cases levels with
    | zero => exact ⟨false, readValue_object_error h⟩
    | succ levels =>
      rw [htext, readValue_object_succ, ← htext] at h
      exact onlyTooDeep_members [] hmembers (by omega) (Result.map_eq_error.mp h)

/-- A readable value without levels is not refused. -/
theorem onlyTooDeep_of_depth_eq_zero {j : Json} (h : Readable j) (hdepth : j.depth = 0) :
    OnlyTooDeep j :=
  fun hfuel hrest herror =>
    absurd herror (not_error_of_depth_le h (hdepth.trans_le (Nat.zero_le _)) hfuel hrest)

/-- A readable value is refused for its depth, if at all. -/
theorem onlyTooDeep_of_readable {j : Json} (h : Readable j) : OnlyTooDeep j := by
  induction h with
  | array items_readable ih => exact onlyTooDeep_array (.array items_readable) ih
  | object distinct values ih => exact onlyTooDeep_object (.object distinct values) ih
  | null => exact onlyTooDeep_of_depth_eq_zero .null rfl
  | boolean b => exact onlyTooDeep_of_depth_eq_zero (.boolean b) rfl
  | integer short => exact onlyTooDeep_of_depth_eq_zero (.integer short) rfl
  | double x => exact onlyTooDeep_of_depth_eq_zero (.double x) rfl
  | string s => exact onlyTooDeep_of_depth_eq_zero (.string s) rfl

end

/-! ## Texts -/

/-- A readable value that is not too deep is read back from its text. -/
theorem read_write {j : Json} (h : Readable j) (hdepth : j.depth ≤ room + 1) :
    read (write plain j) room = .ok j := by
  have hkept : KeepsWithin room (room + 1) j := keepsWithin_of_readable h (room + 1)
  rw [KeepsWithin, if_pos hdepth] at hkept
  rw [← Result.toOption_eq_some, toOption_read, write, String.toList_ofList,
    readChars_writeOnto (rereads_plain (.lenient room))]
  exact hkept

/-- The text of a readable value that is too deep is refused for just that. -/
theorem read_write_of_deep {j : Json} (h : Readable j) (hdepth : room + 1 < j.depth) :
    ∃ failure isArray, read (write plain j) room = .error failure ∧
      failure.complaint = .tooDeep isArray := by
  have hplain := rereads_plain (.lenient room)
  have hrefused := readsBack hplain j (2 * (writeOnto plain [] j).length + 2) (room + 1) []
    (by omega) rfl
  rw [keepsWithin_of_readable h, if_neg (Nat.not_le.mpr hdepth)] at hrefused
  obtain ⟨stop, hstop⟩ := Result.toOption_eq_none.mp hrefused
  obtain ⟨isArray, hdeep⟩ := onlyTooDeep_of_readable h (by omega) rfl hstop
  have hchars : readChars (.lenient room) (writeOnto plain [] j) = .error stop := by
    rw [readChars_eq hplain]
    change readValue _ _ (room + 1) _ >>= _ = _
    rw [hstop]
    rfl
  rw [read, write, String.toList_ofList, hchars]
  exact ⟨_, isArray, rfl, hdeep⟩

end RecordStore.Json
