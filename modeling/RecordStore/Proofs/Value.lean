import RecordStore.Proofs.Calendar.Clocks
import RecordStore.Value

/-!
# The order of values

How values compare with null, and values with their plain forms, which have neither the mark of a
64-bit integer nor that of binary data.
-/

namespace RecordStore

namespace Magnitude

theorem compare_self (m : Magnitude) : m.compare m = .eq := by
  cases m with
  | units count => exact Int.compare_eq_eq.mpr rfl
  | unordered | below | above => rfl

/-- Whole numbers lie on the line of numbers as they compare. -/
theorem compare_ofInt (a b : Int) : (ofInt a).compare (ofInt b) = Ord.compare a b := by
  have hpos : (0 : Int) < Double.unitsPerOne := by
    unfold Double.unitsPerOne
    generalize 1074 = n
    exact Int.natCast_pos.mpr (Nat.two_pow_pos n)
  change Ord.compare (a * (Double.unitsPerOne : Int)) (b * (Double.unitsPerOne : Int)) = _
  obtain hlt | rfl | hgt := Int.lt_trichotomy a b
  · rw [Int.compare_eq_lt.mpr hlt, Int.compare_eq_lt]
    exact Int.mul_lt_mul_of_pos_right hlt hpos
  · rw [Int.compare_eq_eq.mpr rfl, Int.compare_eq_eq.mpr rfl]
  · rw [Int.compare_eq_gt.mpr hgt, Int.compare_eq_gt]
    exact Int.mul_lt_mul_of_pos_right hgt hpos

end Magnitude

namespace Value

/-- The value without the mark of a 64-bit integer or of binary data. -/
def plain : Value → Value
  | .long n => .integer n
  | .binary b => .blob b
  | v => v

theorem kind_plain (v : Value) : v.plain.kind = v.kind := by
  cases v <;> rfl

theorem compare_timestamp (m n : Moment) : (timestamp m).compare (.timestamp n) = m.compare n := rfl

theorem compareSame_plain (v : Value) : compareSame v.plain v = .eq := by
  cases v with
  | null => rfl
  | boolean b => cases b <;> rfl
  | integer n | long n => exact (Magnitude.ofInt n).compare_self
  | double x => exact (Magnitude.ofDouble x).compare_self
  | timestamp m => exact m.compare_self
  | string s =>
    change List.compareLex Ord.compare s.toList s.toList = .eq
    exact Std.ReflCmp.compare_self
  | blob bytes | binary bytes =>
    change List.compareLex Ord.compare bytes bytes = .eq
    exact Std.ReflCmp.compare_self

/-- The plain form of a value is neither below nor above it. -/
theorem compare_plain (v : Value) : v.plain.compare v = .eq := by
  rw [compare, rank, rank, kind_plain, compareSame_plain, Nat.compare_eq_eq.mpr rfl]
  rfl

/-- Only a value that was marked as binary data differs from its plain form. -/
theorem same_plain {v : Value} (h : ∀ b, v ≠ .binary b) : v.plain.same v := by
  have hequal : (v.plain.kind = v.kind && v.plain.compare v = .eq) = true := by
    simp [kind_plain, compare_plain]
  cases v with
  | binary b => exact absurd rfl (h b)
  | timestamp m => exact m.same_self
  | null | boolean _ | integer _ | long _ | double _ | string _ | blob _ => exact hequal

/-- Nothing lies below null, and null alone is not above it. -/
theorem compare_null (v : Value) : v.compare .null = if v.isNull then .eq else .gt := by
  cases v <;> rfl

/-- Null comes before every other value. -/
theorem null_compare {v : Value} (h : v.isNull = false) : Value.null.compare v = .lt := by
  cases v with
  | null => cases h
  | boolean _ | integer _ | long _ | double _ | timestamp _ | string _ | blob _ | binary _ => rfl

theorem isNull_iff {v : Value} : v.isNull = true ↔ v = .null := by
  cases v <;> simp [isNull, kind]

/-- If both are timestamps, their moments are in step. -/
def InStep (v w : Value) : Prop := ∀ m n, v = .timestamp m → w = .timestamp n → m.InStep n

theorem inStep_timestamp {m n : Moment} : (timestamp m).InStep (.timestamp n) ↔ m.InStep n :=
  ⟨fun h => h m n rfl rfl, fun h _ _ hm hn => timestamp.inj hm ▸ timestamp.inj hn ▸ h⟩

/-- A value that is no timestamp is in step with every other. -/
theorem inStep_of_kind_ne {w : Value} (h : w.kind ≠ .timestamp) (v : Value) : v.InStep w :=
  fun _ _ _ hn => absurd (congrArg kind hn) h

theorem inStep_self (v : Value) : v.InStep v := by
  rintro m n rfl hn -
  rw [timestamp.inj hn]

end Value

end RecordStore
