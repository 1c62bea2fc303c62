import RecordStore.Model.Codec
import RecordStore.Proofs.Json.RoundTrip
import RecordStore.Proofs.Model.Reading
import RecordStore.Proofs.Text.Utf8

/-!
# What a payload brings back

An instance of texts, numbers, booleans, byte strings, lists, dictionaries and other instances
(`FieldType.Holds`) comes back from its payload if no double in it is other than finite, no whole
number too long and nothing too deep (`Datum.isRestorable`); otherwise the payload cannot be read
(`Model.isBroughtBack_of_holds`).
-/

namespace RecordStore

/-! ## Data of a type -/

/-- The data that are null, a boolean, a whole number or a text. -/
def Datum.isScalar : Datum → Bool
  | .null | .boolean _ | .integer _ | .text _ => true
  | _ => false

/-- The values of the declared type of a field. -/
inductive FieldType.Holds : FieldType → Datum → Prop
  | text (s : String) : Holds .text (.text s)
  | integer (n : Int) : Holds .integer (.integer n)
  | double (x : Double) : Holds .double (.double x)
  | boolean (b : Bool) : Holds .boolean (.boolean b)
  | bytes (b : Bytes) : Holds .bytes (.bytes b)
  | list {item : FieldType} {items : List Datum} (hitems : ∀ d ∈ items, Holds item d) :
    Holds (.list item) (.list items)
  | map {item : FieldType} {entries : List (String × Datum)} (hkeys : (Assoc.keys entries).Nodup)
    (hitems : ∀ entry ∈ entries, Holds item entry.2) : Holds (.map item) (.ofFields entries)
  | null (inner : FieldType) : Holds (.optional inner) .null
  | optional (s : String) : Holds (.optional .text) (.text s)
  | literal {choices : List Datum} {d : Datum} (hmem : d ∈ choices) (hscalar : d.isScalar = true) :
    Holds (.literal choices) d
  | model {name : String} {fields : List Field} {ds : List (String × Datum)} (given : List String)
    (hnames : (fields.map Field.name).Nodup) (hfields : ds.map Prod.fst = fields.map Field.name)
    (hitems : ∀ pair ∈ fields.zip ds, Holds pair.1.type pair.2.2) :
    Holds (.model name fields) (.model (.ofFields name fields) ds given)

namespace Datum

/-- What lies on the line of numbers is the same as itself. -/
theorem sameMagnitude_self {x : Magnitude} (h : x ≠ .unordered) : sameMagnitude x x = true := by
  rw [sameMagnitude, decide_eq_true rfl, decide_eq_true h, Bool.and_self]

theorem same_of_isScalar {d : Datum} (h : d.isScalar = true) : d.same d = true := by
  have hint (n : Int) : Magnitude.ofInt n ≠ .unordered := fun h => Magnitude.noConfusion h
  cases d with
  | null => simp [same, sameLeaf]
  | boolean b => simpa only [same, sameLeaf, magnitude?] using sameMagnitude_self (hint _)
  | integer n => simpa only [same, sameLeaf, magnitude?] using sameMagnitude_self (hint n)
  | text s => simp [same, sameLeaf]
  | _ => cases h

theorem same_bytes (b : Bytes) : (bytes b).same (.bytes b) = true := by
  simp [same, sameLeaf, magnitude?, plainBytes?]

/-- A finite double is the same as itself; what is not a number is not. -/
theorem same_double {x : Double} (h : x.isFinite = true) : (double x).same (.double x) = true := by
  cases x with
  | finite negative exponent fraction =>
    have hplace : Magnitude.ofDouble (.finite negative exponent fraction) ≠ .unordered :=
      fun h => Magnitude.noConfusion h
    simpa only [same, sameLeaf, magnitude?] using sameMagnitude_self hplace
  | _ => cases h

mutual

/-- Whether a payload can bring a datum back, below which so many levels may lie: its doubles are
finite, its whole numbers have not too many digits, and lists, dictionaries and instances with
content lie no deeper than the levels. -/
def isRestorable (levels : Nat) : Datum → Bool
  | .double x => x.isFinite
  | .integer n => Number.isShort n
  | .list items =>
    match levels with
    | 0 => items.isEmpty
    | levels + 1 => areRestorable levels items
  | .dict entries =>
    match levels with
    | 0 => entries.isEmpty
    | levels + 1 => areRestorableEntries levels entries
  | .model _ fields _ =>
    match levels with
    | 0 => fields.isEmpty
    | levels + 1 => areRestorableFields levels fields
  | _ => true

/-- Whether a payload can bring each item back. -/
def areRestorable (levels : Nat) : List Datum → Bool
  | [] => true
  | item :: items => isRestorable levels item && areRestorable levels items

/-- Whether a payload can bring the value of each entry back. -/
def areRestorableEntries (levels : Nat) : List (Datum × Datum) → Bool
  | [] => true
  | (_, item) :: entries => isRestorable levels item && areRestorableEntries levels entries

/-- Whether a payload can bring each field of an instance back. -/
def areRestorableFields (levels : Nat) : List (String × Datum) → Bool
  | [] => true
  | (_, item) :: fields => isRestorable levels item && areRestorableFields levels fields

end

end Datum

namespace Model

/-! ## The doubles of payloads -/

/-- What is read of the text of a double in a payload. -/
def payloadDouble (x : Double) : Json := if x.isFinite then .double x else .null

/-- What is not a finite number comes back as null. -/
theorem rereads_payload (d : Json.Dialect) : Json.Rereads d ⟨false, payloadDoubles⟩ payloadDouble where
  ascii := rfl
  begins x := by
    cases x with
    | nan => exact ⟨'n', _, rfl, rfl⟩
    | infinite negative => cases negative <;> exact ⟨'n', _, rfl, rfl⟩
    | finite negative exponent fraction => exact Json.exists_write_finite_eq ..
  reads x rest hrest := by
    cases x with
    | nan => rfl
    | infinite negative => cases negative <;> rfl
    | finite negative exponent fraction => exact Json.readPlain_write_finite _ _ _ _ hrest

/-! ## Single data -/

/-- What is read of the JSON form of a datum of a type, below which so many levels may lie. -/
def reread? (levels : Nat) (type : FieldType) (j : Json) : Option Datum :=
  (Json.reread? .strict payloadDouble levels j).bind fun value => readType value type

/-- What is read is what it should be, if that can be restored, and nothing otherwise. -/
def Restores {α : Type} (restorable : Bool) (same : α → Prop) (read : Option α) : Prop :=
  if restorable then ∃ back, read = some back ∧ same back else read = none

/-- The JSON form of a datum, also in a field that keeps what is not a finite number. -/
def Dumps (d : Datum) (j : Json) : Prop := d.dump = .ok j ∨ ∃ x, d = .double x ∧ j = .double x

/-- A datum that is no double has one JSON form. -/
theorem Dumps.eq {d : Datum} {j form : Json} (h : Dumps d j) (hform : d.dump = .ok form)
    (hd : ∀ x, d ≠ .double x) : j = form := by
  obtain h | ⟨x, rfl, -⟩ := h
  · exact Except.ok.inj (h.symm.trans hform)
  · exact absurd rfl (hd x)

variable {levels : Nat} {j : Json}

/-- A datum without others in it is brought back as far as its JSON form is. -/
theorem restores_of_reread? {restorable : Bool} {d back : Datum} {type : FieldType} {value : Json}
    (hreread : Json.reread? .strict payloadDouble levels j = if restorable then some value else none)
    (hread : readType value type = some back) (hsame : back.same d = true) :
    Restores restorable (·.same d = true) (reread? levels type j) := by
  rw [reread?, hreread]
  cases restorable with
  | false => rfl
  | true => exact ⟨back, hread, hsame⟩

/-- A whole number is read back unless it has too many digits. -/
theorem reread?_integer (n : Int) : Json.reread? .strict payloadDouble levels (.integer n) =
    if (Datum.integer n).isRestorable levels then some (.integer n) else none := by
  rw [Json.reread?, Datum.isRestorable, Number.isShort]
  by_cases hlong : Number.maxDigits < (Nat.toDigits 10 n.natAbs).length
  · rw [if_pos hlong, decide_eq_false (Nat.not_le.mpr hlong)]
    rfl
  · rw [if_neg hlong, decide_eq_true (Nat.not_lt.mp hlong)]
    rfl

/-- The scalars of JSON are brought back, except for whole numbers that are too long. -/
theorem restores_scalar {d back : Datum} {type : FieldType} (hd : d.isScalar = true) (hj : Dumps d j)
    (hread : ∀ value, Datum.ofJson value = d → d.dump = .ok value → readType value type = some back)
    (hsame : back.same d = true) : Restores (d.isRestorable levels) (·.same d = true) (reread? levels type j) := by
  cases d with
  | null =>
    obtain rfl := hj.eq rfl nofun
    exact restores_of_reread? rfl (hread _ rfl rfl) hsame
  | boolean b =>
    obtain rfl := hj.eq rfl nofun
    exact restores_of_reread? rfl (hread _ rfl rfl) hsame
  | integer n =>
    obtain rfl := hj.eq rfl nofun
    exact restores_of_reread? (reread?_integer n) (hread _ rfl rfl) hsame
  | text s =>
    obtain rfl := hj.eq rfl nofun
    exact restores_of_reread? rfl (hread _ rfl rfl) hsame
  | _ => cases hd

/-- A finite double is restored, and no other one. -/
theorem restores_double {x : Double} (hj : Dumps (.double x) j) :
    Restores x.isFinite (·.same (.double x) = true) (reread? levels .double j) := by
  -- Both forms of a double are written and read back in the same way.
  have hreread : Json.reread? .strict payloadDouble levels j = some (payloadDouble x) := by
    obtain hj | ⟨_, ⟨⟩, rfl⟩ := hj
    · obtain rfl := Except.ok.inj hj
      cases x with
      | finite => rfl
      | _ => rfl
    · rfl
  rw [reread?, hreread]
  cases hx : x.isFinite with
  | true =>
    refine ⟨.double x, ?_, Datum.same_double hx⟩
    rw [payloadDouble, hx]
    rfl
  | false =>
    rw [payloadDouble, hx]
    rfl

/-- Bytes are dumped as the text that they encode. -/
theorem exists_of_dumpBytes {b : Bytes} {s : String} (h : dumpBytes b = .ok s) :
    Text.ofUtf8? b = some s := by
  rw [dumpBytes] at h
  split at h
  · next hread =>
    cases h
    exact hread
  · cases h

/-- Bytes that are dumped are restored. -/
theorem restores_bytes {b : Bytes} (hj : Dumps (.bytes b) j) :
    Restores true (·.same (.bytes b) = true) (reread? levels .bytes j) := by
  obtain hj | ⟨_, ⟨⟩, -⟩ := hj
  rw [Datum.dump] at hj
  cases hs : dumpBytes b with
  | error e =>
    rw [hs] at hj
    cases hj
  | ok s =>
    rw [hs] at hj
    obtain rfl := Except.ok.inj hj
    refine restores_of_reread? rfl rfl ?_
    rw [Text.utf8_of_ofUtf8? (exists_of_dumpBytes hs)]
    exact Datum.same_bytes b

/-- A choice is brought back as one that is the same. -/
theorem restores_literal {choices : List Datum} {d : Datum} (hmem : d ∈ choices)
    (hscalar : d.isScalar = true) (hj : Dumps d j) :
    Restores (d.isRestorable levels) (·.same d = true) (reread? levels (.literal choices) j) := by
  obtain ⟨back, hback⟩ : ∃ back, choices.find? (fun choice => choice.same d) = some back :=
    Option.isSome_iff_exists.mp
      (List.find?_isSome.mpr ⟨d, hmem, Datum.same_of_isScalar hscalar⟩)
  refine restores_scalar hscalar hj (fun value hvalue _ => ?_) (by simpa using List.find?_some hback)
  subst hvalue
  rw [readType]
  cases value with
  | array _ => cases hscalar
  | object _ => cases hscalar
  | _ => exact hback

/-! ## Collections -/

variable {α β γ : Type} {P : α → Prop} {Q : β → Prop} {R : γ → Prop} {r s : Bool} {x : Option α}
  {y : Option β}

/-- A change of what is read changes what it should be. -/
theorem Restores.map (h : Restores r P x) {f : α → β} (hf : ∀ a, P a → Q (f a)) :
    Restores r Q (x.map f) := by
  cases r with
  | false => exact congrArg (Option.map f) h
  | true =>
    obtain ⟨a, rfl, ha⟩ := h
    exact ⟨f a, rfl, hf a ha⟩

/-- Two parts are restored together if both of them are. -/
theorem Restores.both (hx : Restores r P x) (hy : Restores s Q y) {f : α → β → γ}
    (hf : ∀ a b, P a → Q b → R (f a b)) :
    Restores (r && s) R (x.bind fun a => y.map (f a)) := by
  cases r with
  | false => exact congrArg (Option.bind · fun a => y.map (f a)) hx
  | true =>
    obtain ⟨a, rfl, ha⟩ := hx
    exact hy.map fun b => hf a b ha

/-- Whether a datum is brought back as it is, whatever lies below it. -/
def IsBroughtBack (type : FieldType) (d : Datum) : Prop :=
  ∀ (levels : Nat) (j : Json), Dumps d j →
    Restores (d.isRestorable levels) (·.same d = true) (reread? levels type j)

/-- Items are restored if each of them is brought back. -/
theorem restores_items {item : FieldType} {items : List Datum} {js : List Json}
    (hitems : ∀ d ∈ items, IsBroughtBack item d) (hjs : Datum.dumpItems items = .ok js) :
    Restores (Datum.areRestorable levels items) (List.Forall₂ (fun back d => back.same d = true) · items)
      ((Json.rereadItems? .strict payloadDouble levels js).bind fun values =>
        values.mapM fun value => readType value item) := by
  induction items generalizing js with
  | nil =>
    obtain rfl := Except.ok.inj hjs
    exact ⟨[], rfl, .nil⟩
  | cons d items ih =>
    obtain ⟨hd, hmore⟩ := List.forall_mem_cons.mp hitems
    obtain ⟨j, hj, hjs⟩ := Result.bind_eq_ok.mp hjs
    obtain ⟨js, hrest, hjs⟩ := Result.bind_eq_ok.mp hjs
    obtain rfl := Except.ok.inj hjs
    rw [Datum.areRestorable, Json.rereadItems?, Result.bind_mapM_cons]
    exact (hd levels j (.inl hj)).both (ih hmore hrest) fun _ _ hback hbacks => .cons hback hbacks

/-! ## Members -/

/-- In payloads, members are read one after the other. -/
theorem rereadMembers?_before (before js : List (String × Json)) :
    Json.rereadMembers? .strict payloadDouble levels before js =
      (Json.rereadMembers? .strict payloadDouble levels [] js).map (before ++ ·) := by
  induction js generalizing before with
  | nil => exact congrArg some (List.append_nil before).symm
  | cons member js ih =>
    rw [Json.rereadMembers?, Json.rereadMembers?]
    cases Json.reread? .strict payloadDouble levels member.2 with
    | none => rfl
    | some value =>
      have happend (members : List (String × Json)) : Json.addMember .strict member.1 value members =
          members ++ [(member.1, value)] := rfl
      simp only [happend, bind, Option.bind_some, List.nil_append]
      rw [ih, ih [(member.1, value)], Option.map_map]
      refine congrArg (Option.map · _) (funext fun members => ?_)
      exact List.append_assoc ..

theorem rereadMembers?_cons (name : String) (j : Json) (js : List (String × Json)) :
    Json.rereadMembers? .strict payloadDouble levels [] ((name, j) :: js) =
      ((Json.reread? .strict payloadDouble levels j).map fun value => (name, value)) >>= fun member =>
        Json.rereadMembers? .strict payloadDouble levels [] js >>= fun members =>
          some (member :: members) := by
  rw [Json.rereadMembers?]
  cases Json.reread? .strict payloadDouble levels j with
  | none => rfl
  | some value =>
    refine (rereadMembers?_before [(name, value)] js).trans ?_
    exact Option.map_eq_bind ..

/-- The form of an entry with a text key. -/
theorem dumpEntries_cons {name : String} {item : Datum} {entries : List (Datum × Datum)}
    {js : List (String × Json)} (h : Datum.dumpEntries ((.text name, item) :: entries) = .ok js) :
    ∃ j rest, item.dump = .ok j ∧ Datum.dumpEntries entries = .ok rest ∧ js = (name, j) :: rest := by
  obtain ⟨_, ⟨⟩, h⟩ := Result.bind_eq_ok.mp h
  obtain ⟨j, hj, h⟩ := Result.bind_eq_ok.mp h
  obtain ⟨rest, hrest, h⟩ := Result.bind_eq_ok.mp h
  exact ⟨j, rest, hj, hrest, (Except.ok.inj h).symm⟩

theorem dumpFields_cons {doubles : List String} {name : String} {item : Datum}
    {fields : List (String × Datum)} {js : List (String × Json)}
    (h : Datum.dumpFields doubles ((name, item) :: fields) = .ok js) :
    ∃ j rest, Dumps item j ∧ Datum.dumpFields doubles fields = .ok rest ∧ js = (name, j) :: rest := by
  -- A field of doubles keeps what is not finite, so doubles go first.
  by_cases hd : ∃ x, item = .double x
  · obtain ⟨x, rfl⟩ := hd
    rw [Datum.dumpFields] at h
    obtain ⟨j, hj, h⟩ := Result.bind_eq_ok.mp h
    obtain rfl := Except.ok.inj hj
    obtain ⟨rest, hrest, h⟩ := Result.bind_eq_ok.mp h
    refine ⟨_, rest, ?_, hrest, (Except.ok.inj h).symm⟩
    split
    · exact .inr ⟨x, rfl, rfl⟩
    · next hx =>
      have hfinite : x.isFinite = false := by
        simpa using (not_or.mp (mt Bool.or_eq_true_iff.mpr hx)).1
      rw [Dumps, Datum.dump, hfinite]
      exact .inl rfl
  · rw [Datum.dumpFields] at h
    · obtain ⟨j, hj, h⟩ := Result.bind_eq_ok.mp h
      obtain ⟨rest, hrest, h⟩ := Result.bind_eq_ok.mp h
      exact ⟨j, rest, .inl hj, hrest, (Except.ok.inj h).symm⟩
    · exact fun x hx => hd ⟨x, hx⟩

/-- Fields keep their names. -/
theorem keys_of_dumpFields {doubles : List String} {ds : List (String × Datum)}
    {js : List (String × Json)} (h : Datum.dumpFields doubles ds = .ok js) :
    Assoc.keys js = ds.map Prod.fst := by
  induction ds generalizing js with
  | nil =>
    obtain rfl := Except.ok.inj h
    rfl
  | cons d ds ih =>
    obtain ⟨_, rest, -, hrest, rfl⟩ := dumpFields_cons h
    exact congrArg (d.1 :: ·) (ih hrest)

/-- Members that are read have the same names and values that are the same. -/
def SameMembers (backs entries : List (String × Datum)) : Prop :=
  List.Forall₂ (fun back entry => back.1 = entry.1 ∧ back.2.same entry.2 = true) backs entries

/-- A member is restored under its name if its value is brought back. -/
theorem restores_member {type : FieldType} {name : String} {d : Datum} (h : IsBroughtBack type d)
    (hj : Dumps d j) : Restores (d.isRestorable levels) (fun back => back.1 = name ∧ back.2.same d = true)
      (((Json.reread? .strict payloadDouble levels j).map fun value => (name, value)).bind fun member =>
        (readType member.2 type).map fun back => (member.1, back)) := by
  have hmember : ((Json.reread? .strict payloadDouble levels j).map fun value => (name, value)).bind
      (fun member => (readType member.2 type).map fun back => (member.1, back)) =
        (reread? levels type j).map fun back => (name, back) := by
    rw [reread?]
    cases Json.reread? .strict payloadDouble levels j <;> rfl
  rw [hmember]
  exact (h levels j hj).map fun _ hback => ⟨rfl, hback⟩

/-- Entries are restored if the value of each is brought back. -/
theorem restores_entries {item : FieldType} {entries : List (String × Datum)} {js : List (String × Json)}
    (hitems : ∀ entry ∈ entries, IsBroughtBack item entry.2)
    (hjs : Datum.dumpEntries (entries.map fun entry => (.text entry.1, entry.2)) = .ok js) :
    Restores (Datum.areRestorableEntries levels (entries.map fun entry => (.text entry.1, entry.2)))
      (SameMembers · entries)
      ((Json.rereadMembers? .strict payloadDouble levels [] js).bind fun members =>
        members.mapM fun member => (readType member.2 item).map fun d => (member.1, d)) := by
  induction entries generalizing js with
  | nil =>
    obtain rfl := Except.ok.inj hjs
    exact ⟨[], rfl, .nil⟩
  | cons entry entries ih =>
    obtain ⟨hd, hmore⟩ := List.forall_mem_cons.mp hitems
    obtain ⟨j, rest, hj, hrest, rfl⟩ := dumpEntries_cons hjs
    rw [rereadMembers?_cons, List.map_cons, Datum.areRestorableEntries]
    refine (congrArg (Restores _ _) (Result.bind_mapM_cons _ _ _)).mpr ?_
    exact (restores_member hd (.inl hj)).both (ih hmore hrest) fun _ _ hback hbacks => .cons hback hbacks

/-- A member with another name is not read for a field. -/
theorem readFields_cons_of_ne {name : String} {value : Json} {members : List (String × Json)}
    {fields : List Field} (h : name ∉ fields.map Field.name) :
    readFields ((name, value) :: members) fields = readFields members fields := by
  induction fields with
  | nil => rfl
  | cons field fields ih =>
    obtain ⟨fieldName, type, initial⟩ := field
    obtain ⟨hne, hmore⟩ := not_or.mp (mt List.mem_cons.mpr h)
    have hget : Assoc.get? fieldName ((name, value) :: members) = Assoc.get? fieldName members :=
      if_neg hne
    rw [readFields, readFields, ih hmore, readField, readField, hget]

/-- The first field is read of the first member, and the other fields are read of the others. -/
theorem readFields_rereadMembers?_cons {name : String} {type : FieldType} {initial : Option Datum}
    {fields : List Field} (hfresh : name ∉ fields.map Field.name) (js : List (String × Json)) :
    (Json.rereadMembers? .strict payloadDouble levels [] ((name, j) :: js)).bind
        (fun members => readFields members (.mk name type initial :: fields)) =
      (((Json.reread? .strict payloadDouble levels j).map fun value => (name, value)).bind fun member =>
        (readType member.2 type).map fun back => (member.1, back)).bind fun back =>
          ((Json.rereadMembers? .strict payloadDouble levels [] js).bind fun members =>
            readFields members fields).map (back :: ·) := by
  rw [rereadMembers?_cons]
  cases Json.reread? .strict payloadDouble levels j with
  | none => rfl
  | some value =>
    -- If a later member is not read, the first one may have been read in vain.
    have hnone : ((readType value type).map fun back => (name, back)).bind
        (fun _ => (none : Option (List (String × Datum)))) = none := by
      cases readType value type <;> rfl
    cases Json.rereadMembers? .strict payloadDouble levels [] js with
    | none => exact hnone.symm
    | some members =>
      have hget : Assoc.get? name ((name, value) :: members) = some value := if_pos rfl
      have hfield : readField ((name, value) :: members) (.mk name type initial) =
          (readType value type).map fun back => (name, back) := by
        rw [readField, hget]
      change readFields ((name, value) :: members) (.mk name type initial :: fields) = _
      rw [readFields, hfield, readFields_cons_of_ne hfresh]
      refine congrArg (Option.bind _) (funext fun back => ?_)
      exact (Option.map_eq_bind ..).symm

/-- Fields are restored if each of them is brought back. -/
theorem restores_fields (levels : Nat) {doubles : List String} {fields : List Field} {ds : List (String × Datum)}
    {js : List (String × Json)} (hnames : (fields.map Field.name).Nodup)
    (hfields : ds.map Prod.fst = fields.map Field.name)
    (hitems : ∀ pair ∈ fields.zip ds, IsBroughtBack pair.1.type pair.2.2)
    (hjs : Datum.dumpFields doubles ds = .ok js) :
    Restores (Datum.areRestorableFields levels ds) (SameMembers · ds)
      ((Json.rereadMembers? .strict payloadDouble levels [] js).bind fun members =>
        readFields members fields) := by
  induction fields generalizing ds js with
  | nil =>
    obtain rfl := List.map_eq_nil_iff.mp hfields
    obtain rfl := Except.ok.inj hjs
    exact ⟨[], rfl, .nil⟩
  | cons field fields ih =>
    obtain ⟨name, type, initial⟩ := field
    obtain ⟨hfresh, hnodup⟩ := List.nodup_cons.mp hnames
    obtain ⟨⟨own, d⟩, ds, rfl, hown, hmore⟩ := List.map_eq_cons_iff.mp hfields
    obtain rfl : own = name := hown
    obtain ⟨hd, hrest⟩ := List.forall_mem_cons.mp hitems
    obtain ⟨j, rest, hj, hjs', rfl⟩ := dumpFields_cons hjs
    have hfresh' : own ∉ fields.map Field.name := hfresh
    have hd' : IsBroughtBack type d := hd
    -- The first field takes the first member, whose name no other field has.
    rw [readFields_rereadMembers?_cons hfresh', Datum.areRestorableFields]
    exact (restores_member hd' hj).both (ih hnodup hmore hrest hjs') fun _ _ hback hbacks =>
      .cons hback hbacks

/-- The names of members come back. -/
theorem keys_rereadMembers? {js members : List (String × Json)}
    (h : Json.rereadMembers? .strict payloadDouble levels [] js = some members) :
    Assoc.keys members = Assoc.keys js := by
  induction js generalizing members with
  | nil =>
    obtain rfl := Option.some.inj h
    rfl
  | cons member js ih =>
    rw [rereadMembers?_cons] at h
    obtain ⟨first, hfirst, h⟩ := Option.bind_eq_some_iff.mp h
    obtain ⟨rest, hrest, h⟩ := Option.bind_eq_some_iff.mp h
    obtain ⟨value, -, rfl⟩ := Option.map_eq_some_iff.mp hfirst
    obtain rfl := Option.some.inj h
    exact congrArg (member.1 :: ·) (ih hrest)

/-! ## Data of a type -/

/-- Lists of the same items are the same. -/
theorem sameItems_of_forall₂ {backs items : List Datum}
    (h : List.Forall₂ (fun back d => back.same d = true) backs items) :
    Datum.sameItems backs items = true := by
  induction h with
  | nil => simp [Datum.sameItems]
  | cons hback _ ih => simp [Datum.sameItems, hback, ih]

/-- Fields with the same values are the same. -/
theorem sameFields_of_sameMembers {backs ds : List (String × Datum)} (h : SameMembers backs ds) :
    Datum.sameFields backs ds = true := by
  induction h with
  | nil => simp [Datum.sameFields]
  | @cons back entry _ _ hback _ ih =>
    obtain ⟨name, d⟩ := entry
    obtain ⟨_, back⟩ := back
    obtain ⟨rfl, hsame⟩ := hback
    simp only [Datum.sameFields, hsame, ih, decide_true, Bool.and_self]

/-- Each entry stands among entries with the same values. -/
theorem allEntriesIn_of_sameMembers {backs entries all : List (String × Datum)}
    (h : SameMembers backs entries) (hall : ∀ entry ∈ entries, entry ∈ all) :
    Datum.allEntriesIn (backs.map fun entry => (.text entry.1, entry.2))
      (all.map fun entry => (.text entry.1, entry.2)) = true := by
  induction h with
  | nil => simp [Datum.allEntriesIn]
  | @cons back entry _ _ hback _ ih =>
    obtain ⟨hentry, hmore⟩ := List.forall_mem_cons.mp hall
    have hfound : (all.map fun entry => (Datum.text entry.1, entry.2)).any
        (fun entry => (Datum.text back.1).same entry.1 && back.2.same entry.2) = true := by
      refine List.any_eq_true.mpr ⟨_, List.mem_map_of_mem hentry, ?_⟩
      have hname : (Datum.text entry.1).same (.text entry.1) = true := Datum.same_of_isScalar rfl
      rw [hback.1, hname, hback.2]
      rfl
    rw [List.map_cons, Datum.allEntriesIn, ih hmore, Bool.and_true]
    exact hfound

/-- Dictionaries with text keys are the same if their entries are, one by one. -/
theorem same_ofFields {backs entries : List (String × Datum)} (h : SameMembers backs entries) :
    (Datum.ofFields backs).same (.ofFields entries) = true := by
  have hlength : backs.length = entries.length := h.length_eq
  rw [Datum.ofFields, Datum.ofFields, Datum.same, allEntriesIn_of_sameMembers h fun _ => id]
  simp [hlength]

/-- Members that are read have the same names. -/
theorem keys_eq_of_sameMembers {backs entries : List (String × Datum)} (h : SameMembers backs entries) :
    Assoc.keys backs = Assoc.keys entries := by
  induction h with
  | nil => rfl
  | cons hback _ ih => exact List.cons_eq_cons.mpr ⟨hback.1, ih⟩

/-- A list is brought back if its items are. -/
theorem isBroughtBack_list {item : FieldType} {items : List Datum}
    (hitems : ∀ d ∈ items, IsBroughtBack item d) : IsBroughtBack (.list item) (.list items) := by
  intro levels j hj
  obtain hj | ⟨_, ⟨⟩, -⟩ := hj
  obtain ⟨js, hjs, hj⟩ := Result.bind_eq_ok.mp hj
  obtain rfl := Except.ok.inj hj
  have hsame {backs : List Datum} (h : List.Forall₂ (fun back d => back.same d = true) backs items) :
      (Datum.list backs).same (.list items) = true := by
    rw [Datum.same, sameItems_of_forall₂ h]
  cases levels with
  | zero =>
    cases items with
    | nil =>
      obtain rfl := Except.ok.inj hjs
      exact ⟨.list [], rfl, hsame .nil⟩
    | cons d items =>
      obtain ⟨_, -, hjs⟩ := Result.bind_eq_ok.mp hjs
      obtain ⟨_, -, hjs⟩ := Result.bind_eq_ok.mp hjs
      obtain rfl := Except.ok.inj hjs
      rfl
  | succ levels =>
    -- Items are read one level further in, after the whole text has been read.
    have hread : reread? (levels + 1) (.list item) (.array js) =
        ((Json.rereadItems? .strict payloadDouble levels js).bind fun values =>
          values.mapM fun value => readType value item).map .list := by
      rw [reread?, Json.reread?]
      cases Json.rereadItems? .strict payloadDouble levels js <;> rfl
    rw [hread]
    exact (restores_items hitems hjs).map fun _ => hsame

/-- A dictionary is brought back if its values are. -/
theorem isBroughtBack_map {item : FieldType} {entries : List (String × Datum)}
    (hkeys : (Assoc.keys entries).Nodup) (hitems : ∀ entry ∈ entries, IsBroughtBack item entry.2) :
    IsBroughtBack (.map item) (.ofFields entries) := by
  intro levels j hj
  obtain hj | ⟨_, ⟨⟩, -⟩ := hj
  obtain ⟨js, hjs, hj⟩ := Result.bind_eq_ok.mp hj
  obtain rfl := Except.ok.inj hj
  have hsame {backs : List (String × Datum)} (h : SameMembers backs entries) :
      (Datum.ofFields (Assoc.ofList backs)).same (.ofFields entries) = true := by
    -- No name was given twice, so none replaces another.
    have hnodup : (Assoc.keys backs).Nodup := keys_eq_of_sameMembers h ▸ hkeys
    rw [Assoc.ofList_of_nodup hnodup]
    exact same_ofFields h
  cases levels with
  | zero =>
    cases entries with
    | nil =>
      obtain rfl := Except.ok.inj hjs
      exact ⟨.dict [], rfl, hsame .nil⟩
    | cons entry entries =>
      obtain ⟨_, _, -, -, rfl⟩ := dumpEntries_cons hjs
      rfl
  | succ levels =>
    have hread : reread? (levels + 1) (.map item) (.object js) =
        ((Json.rereadMembers? .strict payloadDouble levels [] js).bind fun members =>
          members.mapM fun member => (readType member.2 item).map fun d => (member.1, d)).map
            fun ds => .ofFields (Assoc.ofList ds) := by
      rw [reread?, Json.reread?]
      cases Json.rereadMembers? .strict payloadDouble levels [] js <;> rfl
    rw [hread]
    exact (restores_entries hitems hjs).map fun _ => hsame

/-- An instance is brought back if its fields are. -/
theorem isBroughtBack_model {name : String} {fields : List Field} {ds : List (String × Datum)}
    (given : List String) (hnames : (fields.map Field.name).Nodup)
    (hfields : ds.map Prod.fst = fields.map Field.name)
    (hitems : ∀ pair ∈ fields.zip ds, IsBroughtBack pair.1.type pair.2.2) :
    IsBroughtBack (.model name fields) (.model (.ofFields name fields) ds given) := by
  intro levels j hj
  obtain hj | ⟨_, ⟨⟩, -⟩ := hj
  obtain ⟨js, hjs, hj⟩ := Result.bind_eq_ok.mp hj
  obtain rfl := Except.ok.inj hj
  have hsame {backs : List (String × Datum)} (h : SameMembers backs ds) (others : List String) :
      (Datum.model (.ofFields name fields) backs others).same (.model (.ofFields name fields) ds given) =
        true := by
    rw [Datum.same, sameFields_of_sameMembers h]
    simp
  cases levels with
  | zero =>
    cases ds with
    | nil =>
      obtain rfl := List.map_eq_nil_iff.mp hfields.symm
      obtain rfl := Except.ok.inj hjs
      exact ⟨.model (.ofFields name []) [] [], rfl, hsame .nil _⟩
    | cons d ds =>
      obtain ⟨_, _, -, -, rfl⟩ := dumpFields_cons hjs
      rfl
  | succ levels =>
    have hrestores := restores_fields levels hnames hfields hitems hjs
    have hread : reread? (levels + 1) (.model name fields) (.object js) =
        (Json.rereadMembers? .strict payloadDouble levels [] js).bind fun members =>
          readType (.object members) (.model name fields) := by
      rw [reread?, Json.reread?]
      cases Json.rereadMembers? .strict payloadDouble levels [] js <;> rfl
    rw [hread]
    cases hmembers : Json.rereadMembers? .strict payloadDouble levels [] js with
    | none =>
      rw [hmembers] at hrestores
      exact hrestores.map fun _ h => hsame h []
    | some members =>
      -- The members have the names of the fields, of which none stands twice.
      have hkeys : (Assoc.keys members).Nodup := by
        rw [keys_rereadMembers? hmembers, keys_of_dumpFields hjs, hfields]
        exact hnames
      rw [hmembers, Option.bind_some] at hrestores
      rw [Option.bind_some, readType, Assoc.ofList_of_nodup hkeys]
      exact hrestores.map fun _ h => hsame h _

/-- A payload brings back what is of a type, as far as it is restorable. -/
theorem isBroughtBack_of_holds {type : FieldType} {d : Datum} (h : type.Holds d) : IsBroughtBack type d := by
  induction h with
  | text s | integer n | boolean b | null inner | optional s =>
    exact fun _ _ hj => restores_scalar rfl hj (fun _ _ hvalue => by cases hvalue; rfl) (Datum.same_of_isScalar rfl)
  | double x => exact fun _ _ => restores_double
  | bytes b => exact fun _ _ => restores_bytes
  | list hitems ih => exact isBroughtBack_list ih
  | map hkeys hitems ih => exact isBroughtBack_map hkeys ih
  | literal hmem hscalar => exact fun _ _ => restores_literal hmem hscalar
  | model given hnames hfields hitems ih => exact isBroughtBack_model given hnames hfields ih

end Model

end RecordStore
