import RecordStore.Json.Writer
import RecordStore.Proofs.Calendar.Ordinal
import RecordStore.Proofs.ColumnType

/-!
# Members of enumerations in columns

A member of an enumeration is to be stored as its value. Members are here those of a plain enumeration
(`Datum.tagged`): a member of an enumeration of texts or of whole numbers is a text or a number itself,
and is stored as one by every conversion. The built-in conversions treat plain members in three ways
(`MemberRule`): those to texts and numbers, and the one without a declared type, look at the value of a
member; those to booleans, timestamps, versions and blobs refuse every such member; and messages are the
canonical JSON text of the value, also where the value is a text, which by itself would be stored as it
is. So members are not always stored as their values. `Registry.toValue_tagged` says exactly when they
are, and what happens to them otherwise.
-/

namespace RecordStore

/-! ## JSON texts of texts -/

namespace Json

/-- No character is written as nothing. -/
theorem escapeChar_ne_nil (ascii : Bool) (c : Char) : escapeChar ascii c ≠ [] := by
  have hunit (n : Nat) : unitEscape n ≠ [] := List.cons_ne_nil _ _
  have hhigh : highEscape c ≠ [] := by
    unfold highEscape
    split
    · exact hunit _
    · exact List.append_ne_nil_of_left_ne_nil (hunit _) _
  -- Every branch is a constant, an escape, or the character.
  have hite {p : Prop} [Decidable p] {chars others : List Char} (h : chars ≠ []) (h' : others ≠ []) :
      (if p then chars else others) ≠ [] := by
    split
    · exact h
    · exact h'
  unfold escapeChar
  repeat' apply hite
  all_goals first
    | exact List.cons_ne_nil _ _
    | exact hunit _
    | exact hhigh

/-- Escaping makes no text shorter. -/
theorem length_le_flatMap_escapeChar (ascii : Bool) (chars : List Char) :
    chars.length ≤ (chars.flatMap (escapeChar ascii)).length := by
  induction chars with
  | nil => exact Nat.zero_le _
  | cons c rest ih =>
    have hescape := List.length_pos_iff.mpr (escapeChar_ne_nil ascii c)
    rw [List.flatMap_cons, List.length_append, List.length_cons]
    omega

/-- The JSON text of a text is another text: it has its quotes besides. -/
theorem write_string_ne (style : Style) (s : String) : write style (.string s) ≠ s := by
  intro h
  have hlength := congrArg (fun text : String => text.toList.length) h
  have hescaped := length_le_flatMap_escapeChar style.ascii s.toList
  have hwrite : write style (.string s) = String.ofList (writeString style s ++ []) := rfl
  simp only [hwrite, writeString, String.toList_ofList, List.append_nil, List.length_append,
    List.length_cons, List.length_nil] at hlength
  omega

end Json

/-- A member has the canonical JSON of its value. -/
theorem Datum.canonicalJson_tagged (d : Datum) : (tagged d).canonicalJson = d.canonicalJson := by
  rw [canonicalJson, canonicalJson, toCanonical]

/-- Only a ready value has one. -/
theorem Datum.eq_value_of_value? {d : Datum} {v : Value} (h : d.value? = some v) : d = .value v := by
  cases d
  case value => exact congrArg _ (Option.some.inj h)
  all_goals cases h

namespace Registry

/-! ## Conversions of members -/

/-- What a conversion does with a member of an enumeration that is of no data type itself. -/
inductive MemberRule
  /-- It looks at the value of the member, once. -/
  | opened
  /-- It refuses the member, whatever its value. -/
  | refused
  /-- It writes the value of the member as JSON. -/
  | written

/-- What the conversion for a type does with members, or the one without a declared type. -/
def memberRule : Option ColumnType → MemberRule
  | none | some .string | some .integer | some .long | some .double => .opened
  | some .boolean | some .timestamp | some .version | some .blob => .refused
  | some .message => .written

/-- Two data are stored as the same value, or neither of them is stored. -/
def StoredAlike (d e : Datum) (t : Option ColumnType) : Prop :=
  ∀ v, default.toValue d t = .ok v ↔ default.toValue e t = .ok v

/-- A datum is not stored in columns of a type. -/
def Refuses (t : Option ColumnType) (d : Datum) : Prop := ∀ v, default.toValue d t ≠ .ok v

/-- Whether members with a value are stored as the value is. -/
def KeepsMember (d : Datum) (t : Option ColumnType) : Prop :=
  match memberRule t with
  | .opened => d.value? = none ∧ ∀ inner, d = .tagged inner → Refuses t d
  | .refused => Refuses t d
  | .written => d.value? = none ∧ ∀ s, d ≠ .text s

variable {d : Datum} {t : Option ColumnType}

/-- Of what is neither null nor a ready value, the converter of the type is asked. -/
theorem toValue_default (hnull : d ≠ .null) (hready : d.value? = none) (t : ColumnType) :
    default.toValue d (some t) = t.converter d := by
  unfold toValue
  split
  · exact absurd rfl hnull
  · cases hready
  · next hundeclared => cases hundeclared
  · next t hdeclared =>
    cases hdeclared
    rw [get?_default]

/-- A member goes to the converter as it is. -/
theorem toValue_tagged_default (d : Datum) (t : ColumnType) :
    default.toValue (.tagged d) (some t) = t.converter (.tagged d) :=
  toValue_default (d := .tagged d) nofun rfl t

/-- A conversion that looks at the value of a member treats the value in the same way by itself, unless
that is a member as well. -/
theorem converter_tagged {t : ColumnType} (h : memberRule (some t) = .opened) (hplain : d.plain = d) :
    t.converter (.tagged d) = t.converter d := by
  have hopened : (Datum.tagged d).plain = d.plain := hplain.symm
  cases t
  case string =>
    rw [ColumnType.converter, ColumnType.toString, ColumnType.toString, hopened]
  case integer | long =>
    rw [ColumnType.converter, ColumnType.toInteger, ColumnType.toInteger, hopened]
  case double =>
    rw [ColumnType.converter, ColumnType.toDouble, ColumnType.toDouble, hopened]
  all_goals cases h

/-- Neither a member of another enumeration nor a ready value is found behind a member. -/
theorem refuses_of_opened (h : memberRule t = .opened)
    (hd : (∃ inner, d = .tagged inner) ∨ ∃ ready, d = .value ready) : Refuses t (.tagged d) := by
  intro v hv
  rcases t with _ | t
  · obtain ⟨_, rfl⟩ | ⟨_, rfl⟩ := hd <;> cases hv
  · rw [toValue_tagged_default] at hv
    cases t
    case string | integer | long | double => obtain ⟨_, rfl⟩ | ⟨_, rfl⟩ := hd <;> cases hv
    all_goals cases h

/-- Without a declared type, the value of a member shows what it is. -/
theorem toValue_undeclared (hnull : d ≠ .null) (hready : d.value? = none) {v : Value} :
    default.toValue d none = .ok v ↔ Value.infer d.plain = .ok v := by
  unfold toValue
  split
  · exact absurd rfl hnull
  · cases hready
  · split
    -- Only the error is another one if nothing can be told from the value.
    · next hbad =>
      rw [hbad]
      exact iff_of_false nofun nofun
    · exact Iff.rfl
  · next hdeclared => cases hdeclared

/-- A column that opens members stores a member as its value. -/
theorem storedAlike_of_opened (h : memberRule t = .opened) (hnull : d ≠ .null) (hready : d.value? = none)
    (hmember : ∀ inner, d ≠ .tagged inner) : StoredAlike (.tagged d) d t := by
  have hplain : d.plain = d := by
    cases d
    case tagged inner => exact absurd rfl (hmember inner)
    all_goals rfl
  intro v
  rcases t with _ | t
  · rw [toValue_undeclared (d := .tagged d) nofun rfl, toValue_undeclared hnull hready, hplain]
    rfl
  · rw [toValue_tagged_default, toValue_default hnull hready, converter_tagged h hplain]

/-- A column that refuses members takes none. -/
theorem refuses_of_refused (h : memberRule t = .refused) (d : Datum) : Refuses t (.tagged d) := by
  intro v hv
  rcases t with _ | t
  · cases h
  · rw [toValue_tagged_default] at hv
    cases t
    case boolean | timestamp | version | blob => cases hv
    all_goals cases h

/-- A message that is no text is stored as its canonical JSON text. -/
theorem toMessage_eq_ok (htext : ∀ s, d ≠ .text s) {v : Value} :
    ColumnType.toMessage d = .ok v ↔ ∃ s, d.canonicalJson = .ok s ∧ v = .string s := by
  unfold ColumnType.toMessage
  split
  · next s => exact absurd rfl (htext s)
  · split
    · next s hjson => simp [hjson, eq_comm]
    · next hjson => simp [hjson]
    · next e _ hjson => simp [hjson]

/-- A member is stored as a message exactly if its value has a JSON text. -/
theorem toValue_tagged_message {v : Value} :
    default.toValue (.tagged d) (some .message) = .ok v ↔
      ∃ s, d.canonicalJson = .ok s ∧ v = .string s := by
  rw [toValue_tagged_default, ← Datum.canonicalJson_tagged]
  exact toMessage_eq_ok (d := .tagged d) nofun

/-- The canonical JSON of a text quotes it. -/
theorem canonicalJson_text (s : String) :
    (Datum.text s).canonicalJson = .ok (Json.write Json.plain (.string s)) := by
  rw [Datum.canonicalJson, Datum.toCanonical]
  rfl

/-- A ready value has no canonical JSON. -/
theorem canonicalJson_value (ready : Value) {s : String} : (Datum.value ready).canonicalJson ≠ .ok s :=
  nofun

/-! ## Members and their values -/

theorem not_refuses_iff : ¬ Refuses t d ↔ ∃ v, default.toValue d t = .ok v := by
  simp only [Refuses, not_forall, not_not]

/-- Every column takes a ready value. -/
theorem not_refuses_value (ready : Value) : ¬ Refuses t (.value ready) := by
  rcases t with _ | t <;> exact fun h => h ready rfl

/-- Where a member is refused, it is stored as its value if that is refused as well. -/
theorem storedAlike_iff_of_refuses (h : Refuses t (.tagged d)) :
    StoredAlike (.tagged d) d t ↔ Refuses t d := by
  simp only [StoredAlike, Refuses, h _, false_iff]

/-- What becomes of members that are looked into. -/
theorem refuses_or_storedAlike_of_opened (h : memberRule t = .opened) (hnull : d ≠ .null) :
    Refuses t (.tagged d) ∧ (KeepsMember d t ↔ Refuses t d) ∨
      StoredAlike (.tagged d) d t ∧ KeepsMember d t := by
  have hkeeps : KeepsMember d t ↔ d.value? = none ∧ ∀ inner, d = .tagged inner → Refuses t d := by
    simp only [KeepsMember, h]
  rw [hkeeps]
  by_cases hmember : ∃ inner, d = .tagged inner
  -- Only one layer is opened, so a member of a member is refused.
  · obtain ⟨inner, rfl⟩ := hmember
    refine .inl ⟨refuses_of_opened h (.inl ⟨inner, rfl⟩), fun hrefuses => hrefuses.2 inner rfl, ?_⟩
    exact fun hrefuses => ⟨rfl, fun _ _ => hrefuses⟩
  rw [not_exists] at hmember
  cases hready : d.value? with
  | some ready =>
    -- A ready value is taken as it is, but not from inside a member.
    obtain rfl := Datum.eq_value_of_value? hready
    refine .inl ⟨refuses_of_opened h (.inr ⟨ready, rfl⟩), ?_⟩
    exact iff_of_false nofun (not_refuses_value ready)
  | none =>
    refine .inr ⟨storedAlike_of_opened h hnull hready hmember, rfl, fun inner hinner => ?_⟩
    exact absurd hinner (hmember inner)

theorem keepsMember_message :
    KeepsMember d (some .message) ↔ d.value? = none ∧ ∀ s, d ≠ .text s := Iff.rfl

/-- What becomes of members that are written as messages. -/
theorem refuses_or_storedAlike_message (hnull : d ≠ .null) (htext : ∀ s, d ≠ .text s) :
    Refuses (some .message) (.tagged d) ∧ (KeepsMember d (some .message) ↔ Refuses (some .message) d) ∨
      StoredAlike (.tagged d) d (some .message) ∧ KeepsMember d (some .message) := by
  rw [keepsMember_message]
  cases hready : d.value? with
  | some ready =>
    obtain rfl := Datum.eq_value_of_value? hready
    refine .inl ⟨fun v hv => ?_, iff_of_false nofun (not_refuses_value ready)⟩
    obtain ⟨s, hs, -⟩ := toValue_tagged_message.mp hv
    exact canonicalJson_value ready hs
  | none =>
    refine .inr ⟨fun v => ?_, rfl, htext⟩
    rw [toValue_tagged_message, toValue_default hnull hready]
    exact (toMessage_eq_ok htext).symm

/-- A member whose value is a text is a message with quotes. -/
theorem not_storedAlike_text (s : String) :
    ¬ StoredAlike (.tagged (.text s)) (.text s) (some .message) := by
  intro halike
  obtain ⟨text, htext, hv⟩ := toValue_tagged_message.mp ((halike (.string s)).mpr rfl)
  rw [canonicalJson_text] at htext
  cases htext
  exact Json.write_string_ne Json.plain s (Value.string.inj hv).symm

/-- A member of a plain enumeration whose value is not null is stored in a column of a type, or without
a declared type, as its value is, or refused with it, exactly if `KeepsMember` holds. Otherwise it is
refused although its value is stored, or its value is a text that becomes a message with quotes. -/
theorem toValue_tagged (d : Datum) (hnull : d ≠ .null) (t : Option ColumnType) :
    (StoredAlike (.tagged d) d t ↔ KeepsMember d t) ∧
      (¬ KeepsMember d t →
        Refuses t (.tagged d) ∧ (∃ v, default.toValue d t = .ok v) ∨
        t = some .message ∧ ∃ s, d = .text s ∧ default.toValue d t = .ok (.string s) ∧
          default.toValue (.tagged d) t = .ok (.string (Json.write Json.plain (.string s)))) := by
  -- Only the texts of messages are stored in two ways without a refusal, so they go first.
  by_cases htext : t = some .message ∧ ∃ s, d = .text s
  · obtain ⟨rfl, s, rfl⟩ := htext
    have hkeeps : ¬ KeepsMember (.text s) (some .message) := fun h => h.2 s rfl
    refine ⟨iff_of_false (not_storedAlike_text s) hkeeps, fun _ => .inr ⟨rfl, s, rfl, rfl, ?_⟩⟩
    exact toValue_tagged_message.mpr ⟨_, canonicalJson_text s, rfl⟩
  -- For all other values the rule of the column decides.
  have houtcome : Refuses t (.tagged d) ∧ (KeepsMember d t ↔ Refuses t d) ∨
      StoredAlike (.tagged d) d t ∧ KeepsMember d t := by
    cases hrule : memberRule t with
    | opened => exact refuses_or_storedAlike_of_opened hrule hnull
    | refused =>
      refine .inl ⟨refuses_of_refused hrule d, ?_⟩
      simp only [KeepsMember, hrule]
    | written =>
      obtain rfl : t = some .message := by
        rcases t with _ | t
        · cases hrule
        · cases t <;> first | rfl | cases hrule
      exact refuses_or_storedAlike_message hnull fun s hs => htext ⟨rfl, s, hs⟩
  obtain ⟨hrefuses, hkeeps⟩ | ⟨halike, hkeeps⟩ := houtcome
  · refine ⟨(storedAlike_iff_of_refuses hrefuses).trans hkeeps.symm, fun hnot => .inl ⟨hrefuses, ?_⟩⟩
    exact not_refuses_iff.mp (hkeeps.not.mp hnot)
  · exact ⟨iff_of_true halike hkeeps, fun hnot => absurd hkeeps hnot⟩

/-- A member whose value is a whole number in a column of whole numbers, and one whose value is a boolean
in a column of booleans. -/
theorem toValue_tagged_seven :
    (Datum.integer 7 ≠ .null ∧ KeepsMember (.integer 7) (some .long) ∧
      default.toValue (.tagged (.integer 7)) (some .long) = .ok (.integer 7)) ∧
    (Datum.boolean true ≠ .null ∧ ¬ KeepsMember (.boolean true) (some .boolean) ∧
      Refuses (some .boolean) (.tagged (.boolean true))) := by
  have hseven : KeepsMember (.integer 7) (some .long) := ⟨rfl, nofun⟩
  have htrue : ¬ KeepsMember (.boolean true) (some .boolean) := fun h => h (.boolean true) rfl
  refine ⟨⟨nofun, hseven, ?_⟩, nofun, htrue, ?_⟩
  · exact ((toValue_tagged (.integer 7) nofun (some .long)).1.mpr hseven (.integer 7)).mpr rfl
  · obtain ⟨hrefuses, -⟩ | ⟨hmessage, -⟩ :=
      (toValue_tagged (.boolean true) nofun (some .boolean)).2 htrue
    · exact hrefuses
    · cases hmessage

/-- Members whose values are stored in columns of booleans, timestamps, versions and blobs, where the
members are refused; a member whose value is a text, as a message; and a member whose value is a member,
and one whose value is a ready value, in a column of texts. -/
theorem members_differ :
    let noon : Moment := ⟨⟨⟨2024, 1, 1, by decide⟩, 43200000000⟩, 0⟩
    let stored (d : Datum) (t : ColumnType) := default.toValue d (some t)
    (stored (.boolean true) .boolean = .ok (.boolean true) ∧
      stored (.tagged (.boolean true)) .boolean =
        .error (.columnType "ColumnType.BOOLEAN" (.tagged (.boolean true)))) ∧
    (stored (.moment noon) .timestamp = .ok (.timestamp noon) ∧
      stored (.tagged (.moment noon)) .timestamp =
        .error (.columnType "ColumnType.TIMESTAMP" (.tagged (.moment noon)))) ∧
    (stored (.integer 7) .version = .ok (.integer 7) ∧
      stored (.tagged (.integer 7)) .version =
        .error (.columnType "ColumnType.VERSION" (.tagged (.integer 7)))) ∧
    (stored (.bytes [1]) .blob = .ok (.blob [1]) ∧
      stored (.tagged (.bytes [1])) .blob =
        .error (.columnType "ColumnType.BLOB" (.tagged (.bytes [1])))) ∧
    (stored (.text "red") .message = .ok (.string "red") ∧
      stored (.tagged (.text "red")) .message = .ok (.string "\"red\"")) ∧
    (stored (.tagged (.text "red")) .string = .ok (.string "red") ∧
      stored (.tagged (.tagged (.text "red"))) .string =
        .error (.columnType "ColumnType.STRING" (.tagged (.text "red")))) ∧
    (stored (.value (.string "red")) .string = .ok (.string "red") ∧
      stored (.tagged (.value (.string "red"))) .string =
        .error (.columnType "ColumnType.STRING" (.value (.string "red")))) := by
  intro noon stored
  -- The conversion to universal time goes through the calendar, which does not reduce.
  have hnoon : stored (.moment noon) .timestamp = .ok (.timestamp noon) := by
    change Value.ofMoment noon = .ok (.timestamp noon)
    rw [Value.ofMoment, Moment.toUniversal?, Moment.ofMicros?_micros rfl]
  exact ⟨⟨rfl, rfl⟩, ⟨hnoon, rfl⟩, ⟨rfl, rfl⟩, ⟨rfl, rfl⟩, ⟨rfl, rfl⟩, ⟨rfl, rfl⟩, rfl, rfl⟩

end Registry

end RecordStore
