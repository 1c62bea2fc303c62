import RecordStore.ColumnType
import RecordStore.Proofs.Result

/-!
# Kinds of columns

The built-in converter of a column type makes values of one kind, whatever data it is given
(`ColumnType.isOf_converter`). So a column holds values of its own kind and nulls, and null is only what
null was written for (`Registry.isOf_toValue`). Ready backend values, which are stored as they are, are
left aside.
-/

namespace RecordStore

/-- The kind of the values in a column of a type. -/
def ColumnType.kind : ColumnType → ValueKind
  | .string | .message => .string
  | .integer | .long | .version => .integer
  | .double => .double
  | .boolean => .boolean
  | .timestamp => .timestamp
  | .blob => .blob

/-- No column type is that of null alone. -/
theorem ColumnType.kind_ne_null (t : ColumnType) : t.kind ≠ .null := by
  cases t <;> decide

namespace Value

/-- A value of a kind; a timestamp is read on a clock of universal time. -/
structure IsOf (kind : ValueKind) (v : Value) : Prop where
  kind_eq : v.kind = kind
  universal : ∀ m, v = .timestamp m → m.clock = .universal

/-- Two values of one kind, or a null and another value. -/
def OneKind (v w : Value) : Prop := v.isNull = true ∨ w.isNull = true ∨ v.kind = w.kind

theorem isOf_ofMoment {m : Moment} {v : Value} (h : ofMoment m = .ok v) : v.IsOf .timestamp := by
  rw [ofMoment] at h
  split at h
  · next universal huniversal =>
    cases h
    refine ⟨rfl, fun other hother => ?_⟩
    obtain ⟨t, -, rfl⟩ := Option.map_eq_some_iff.mp huniversal
    cases hother
    rfl
  · cases h

end Value

namespace ColumnType

variable {d : Datum} {v : Value}

theorem isOf_toString (h : toString d = .ok v) : v.IsOf .string := by
  unfold toString at h
  split at h <;> cases h
  all_goals exact ⟨rfl, nofun⟩

theorem isOf_toInteger {t : ColumnType} (h : toInteger t d = .ok v) : v.IsOf .integer := by
  unfold toInteger at h
  split at h <;> cases h
  all_goals exact ⟨rfl, nofun⟩

theorem isOf_toDouble (h : toDouble d = .ok v) : v.IsOf .double := by
  -- Whole numbers and decimals are rounded to doubles, which may fail.
  have hrounded {x : Except Error Double} (hx : x.map Value.double = .ok v) : v.IsOf .double := by
    obtain ⟨x, -, rfl⟩ := Result.map_eq_ok.mp hx
    exact ⟨rfl, nofun⟩
  unfold toDouble at h
  split at h
  · exact hrounded h
  · exact hrounded h
  · cases h
    exact ⟨rfl, nofun⟩
  · exact hrounded h
  · cases h

theorem isOf_toBoolean (h : toBoolean d = .ok v) : v.IsOf .boolean := by
  unfold toBoolean at h
  split at h <;> cases h
  exact ⟨rfl, nofun⟩

theorem isOf_toTimestamp (h : toTimestamp d = .ok v) : v.IsOf .timestamp := by
  unfold toTimestamp at h
  split at h
  · exact Value.isOf_ofMoment h
  · exact Value.isOf_ofMoment h
  · cases h

theorem isOf_toVersion (h : toVersion d = .ok v) : v.IsOf .integer := by
  unfold toVersion at h
  split at h
  -- Of a model instance, what its field for the number holds is looked at.
  case h_5 =>
    split at h <;> cases h
    all_goals exact ⟨rfl, nofun⟩
  all_goals cases h
  all_goals exact ⟨rfl, nofun⟩

theorem isOf_toBlob (h : toBlob d = .ok v) : v.IsOf .blob := by
  unfold toBlob at h
  split at h <;> cases h
  all_goals exact ⟨rfl, nofun⟩

theorem isOf_toMessage (h : toMessage d = .ok v) : v.IsOf .string := by
  unfold toMessage at h
  split at h
  · cases h
    exact ⟨rfl, nofun⟩
  · split at h <;> cases h
    exact ⟨rfl, nofun⟩

/-- The built-in converter of a type makes values of the type's kind only. -/
theorem isOf_converter {t : ColumnType} (h : t.converter d = .ok v) : v.IsOf t.kind := by
  cases t with
  | string => exact isOf_toString h
  | integer | long => exact isOf_toInteger h
  | double => exact isOf_toDouble h
  | boolean => exact isOf_toBoolean h
  | timestamp => exact isOf_toTimestamp h
  | version => exact isOf_toVersion h
  | blob => exact isOf_toBlob h
  | message => exact isOf_toMessage h

end ColumnType

namespace Registry

/-- The default registry has the converter of every column type. -/
theorem get?_default (t : ColumnType) : default.get? t = some t.converter := by
  cases t <;> rfl

/-- What the built-in converters make of null is null, and what they make of anything else but a ready
value is of the kind of the column. -/
theorem isOf_toValue {d : Datum} {t : ColumnType} {v : Value} (hready : d.value? = none)
    (h : default.toValue d (some t) = .ok v) : d = .null ∧ v = .null ∨ d ≠ .null ∧ v.IsOf t.kind := by
  unfold toValue at h
  -- Null and ready values are told apart before a converter is asked.
  split at h
  · cases h
    exact .inl ⟨rfl, rfl⟩
  · cases hready
  · next hsome => cases hsome
  · next hnull _ hsome =>
    cases hsome
    rw [get?_default] at h
    exact .inr ⟨hnull, ColumnType.isOf_converter h⟩

variable {d e : Datum} {t : ColumnType} {v w : Value}

/-- A value in a column is null exactly if null was written there. -/
theorem isNull_toValue (hready : d.value? = none) (h : default.toValue d (some t) = .ok v) :
    v.isNull = true ↔ d = .null := by
  obtain ⟨hd, rfl⟩ | ⟨hd, hv⟩ := isOf_toValue hready h
  · exact iff_of_true rfl hd
  · refine iff_of_false (fun hnull => ?_) hd
    have hkind : t.kind = .null := hv.kind_eq.symm.trans (of_decide_eq_true hnull)
    exact t.kind_ne_null hkind

/-- Two values of one column are of one kind, if none is null. -/
theorem oneKind_toValue (hd : d.value? = none) (hv : default.toValue d (some t) = .ok v)
    (he : e.value? = none) (hw : default.toValue e (some t) = .ok w) : v.OneKind w := by
  obtain ⟨-, rfl⟩ | ⟨-, hkind⟩ := isOf_toValue hd hv
  · exact .inl rfl
  · obtain ⟨-, rfl⟩ | ⟨-, hkind'⟩ := isOf_toValue he hw
    · exact .inr (.inl rfl)
    · exact .inr (.inr (hkind.kind_eq.trans hkind'.kind_eq.symm))

end Registry

end RecordStore
