import Mathlib.Data.List.Lex
import Mathlib.Data.Prod.Lex
import RecordStore.Proofs.Number.Line
import RecordStore.Proofs.Value

/-!
# Values in one line

Every backend value has a position in one linear order: first by rank, then by the number that it
is, or by the whole numbers that make up its payload (`Value.position`). Values whose timestamps are
in step compare as their positions (`Value.compares_position`); so the order of values is a total
preorder on them, in which two values are equal exactly if they are of one rank and have the same
payload (`Value.compare_total`). Readings of the clock of one region that was set between them are in
the order of these readings, and can go round in a circle with a third moment
(`Value.compare_cycle`).
-/

namespace RecordStore

/-! ## Lexicographic orders -/

/-- A second comparison decides between what the first one leaves equal. -/
theorem compares_then {α β : Type} [LinearOrder α] [LinearOrder β] {a a' : α} {b b' : β}
    {first second : Ordering} (hfirst : first.Compares a a')
    (hsecond : a = a' → second.Compares b b') :
    (first.then second).Compares (toLex (a, b)) (toLex (a', b')) := by
  cases first with
  | lt => exact Prod.Lex.toLex_lt_toLex.mpr (.inl hfirst)
  | gt => exact Prod.Lex.toLex_lt_toLex.mpr (.inl hfirst)
  | eq =>
    obtain rfl : a = a' := hfirst
    have hrest := hsecond rfl
    cases second with
    | lt => exact Prod.Lex.toLex_lt_toLex.mpr (.inr ⟨rfl, hrest⟩)
    | gt => exact Prod.Lex.toLex_lt_toLex.mpr (.inr ⟨rfl, hrest⟩)
    | eq => exact congrArg (fun b => toLex (a, b)) hrest

/-- Behind equal first elements, the others decide. -/
theorem compares_cons {α : Type} [LinearOrder α] {a a' : α} {rest rest' : List α}
    {first second : Ordering} (hfirst : first.Compares a a')
    (hsecond : a = a' → second.Compares rest rest') :
    (first.then second).Compares (a :: rest) (a' :: rest') := by
  cases first with
  | lt => exact List.Lex.rel hfirst
  | gt => exact List.Lex.rel hfirst
  | eq =>
    obtain rfl : a = a' := hfirst
    have hrest := hsecond rfl
    cases second with
    | lt => exact List.Lex.cons hrest
    | gt => exact List.Lex.cons hrest
    | eq => exact congrArg (a :: ·) hrest

/-- Lists compare element by element as the lists of what their elements stand for. -/
theorem compares_map {α β : Type} [LinearOrder β] {compare : α → α → Ordering} {f : α → β}
    (h : ∀ x y, (compare x y).Compares (f x) (f y)) (xs ys : List α) :
    (List.compareLex compare xs ys).Compares (xs.map f) (ys.map f) := by
  induction xs generalizing ys with
  | nil =>
    cases ys with
    | nil => exact rfl
    | cons y ys => exact List.Lex.nil
  | cons x xs ih =>
    cases ys with
    | nil => exact List.Lex.nil
    | cons y ys =>
      rw [List.compareLex_cons_cons]
      exact compares_cons (h x y) fun _ => ih ys

theorem compares_singleton {α : Type} [LinearOrder α] {a b : α} {order : Ordering}
    (h : order.Compares a b) : order.Compares [a] [b] := by
  rw [← Ordering.then_eq (o := order)]
  exact compares_cons h fun _ => rfl

/-- What is ordered like whole numbers compares like them. -/
theorem compares_of_lt_iff {α : Type} [LT α] [DecidableLT α] [DecidableEq α] {f : α → ℤ}
    (hlt : ∀ {x y}, x < y ↔ f x < f y) (hinj : Function.Injective f) (x y : α) :
    (compareOfLessAndEq x y).Compares (f x) (f y) := by
  unfold compareOfLessAndEq
  by_cases hless : x < y
  · rw [if_pos hless]
    exact hlt.mp hless
  · rw [if_neg hless]
    by_cases heq : x = y
    · rw [if_pos heq]
      exact congrArg f heq
    · rw [if_neg heq]
      exact lt_of_le_of_ne (not_lt.mp fun h => hless (hlt.mpr h)) fun h => heq (hinj h).symm

/-- Whole numbers compare in their order. -/
theorem compares_int (a b : ℤ) : (Ord.compare a b).Compares a b :=
  compares_of_lt_iff (f := id) Iff.rfl Function.injective_id a b

theorem compares_bool (a b : Bool) :
    (Ord.compare a b).Compares (if a then 1 else 0 : ℤ) (if b then 1 else 0) := by
  cases a <;> cases b
  · exact rfl
  · exact Int.zero_lt_one
  · exact Int.zero_lt_one
  · exact rfl

theorem codePoint_injective : Function.Injective fun c : Char => (c.toNat : ℤ) :=
  fun _ _ h => Char.toNat_inj.mp (Int.ofNat.inj h)

theorem byte_injective : Function.Injective fun byte : UInt8 => (byte.toNat : ℤ) :=
  fun _ _ h => UInt8.toNat_inj.mp (Int.ofNat.inj h)

/-- Characters compare as their code points. -/
theorem compares_char (c d : Char) : (Ord.compare c d).Compares (c.toNat : ℤ) (d.toNat : ℤ) :=
  compares_of_lt_iff (f := fun c : Char => (c.toNat : ℤ)) Int.ofNat_lt.symm codePoint_injective c d

theorem compares_byte (a b : UInt8) : (Ord.compare a b).Compares (a.toNat : ℤ) (b.toNat : ℤ) :=
  compares_of_lt_iff (f := fun byte : UInt8 => (byte.toNat : ℤ)) Int.ofNat_lt.symm byte_injective
    a b

namespace Value

/-! ## Positions -/

/-- Where a value lies on the line of numbers, if it is a number. -/
def number? : Value → Option NumberLine
  | .integer n | .long n => some (.ofRat n)
  | .double x => some x.place
  | _ => none

/-- The payload of a value that is not a number, as whole numbers: a truth value, a number for the
moment, the code points of a string, or the bytes of a blob. -/
def payload (number : Moment → ℤ) : Value → List ℤ
  | .boolean b => [if b then 1 else 0]
  | .timestamp m => [number m]
  | .string s => s.toList.map fun c => (c.toNat : ℤ)
  | .blob bytes | .binary bytes => bytes.map fun byte => (byte.toNat : ℤ)
  | .null | .integer _ | .long _ | .double _ => []

/-- The position of a value in an order of all values in which moments are in the order of numbers
for them. -/
def positionBy (number : Moment → ℤ) (v : Value) : ℕ ×ₗ NumberLine ×ₗ List ℤ :=
  toLex (v.rank, toLex (v.number?.getD .notANumber, v.payload number))

/-- The position of a value among all values, in which moments are in the order of their instants. -/
def position (v : Value) : ℕ ×ₗ NumberLine ×ₗ List ℤ := v.positionBy Moment.micros

/-- Numbers compare as their magnitudes. -/
theorem compareSame_of_magnitude {a b : Value} {x y : Magnitude} (ha : a.magnitude? = some x)
    (hb : b.magnitude? = some y) : compareSame a b = x.compare y := by
  cases a <;> cases b <;> cases ha <;> cases hb <;> rfl

/-- Blobs compare as their bytes. -/
theorem compareSame_of_bytes {a b : Value} {x y : Bytes} (ha : a.bytes? = some x)
    (hb : b.bytes? = some y) : compareSame a b = List.compareLex Ord.compare x y := by
  cases a <;> cases b <;> cases ha <;> cases hb <;> rfl

variable {number : Moment → ℤ}

/-- A number has its place on the line, and no other payload. -/
theorem position_of_magnitude {v : Value} {m : Magnitude} (h : v.magnitude? = some m) :
    v.number? = some m.place ∧ v.payload number = [] := by
  cases v with
  | integer n | long n =>
    obtain rfl := Option.some.inj h
    exact ⟨congrArg some (Magnitude.place_ofInt n).symm, rfl⟩
  | double x =>
    obtain rfl := Option.some.inj h
    exact ⟨congrArg some (Magnitude.place_ofDouble x).symm, rfl⟩
  | null | boolean _ | timestamp _ | string _ | blob _ | binary _ => cases h

/-- The position of a blob is that of its bytes. -/
theorem position_of_bytes {v : Value} {bytes : Bytes} (h : v.bytes? = some bytes) :
    v.number? = none ∧ v.payload number = bytes.map fun byte => (byte.toNat : ℤ) := by
  cases v with
  | blob _ | binary _ =>
    obtain rfl := Option.some.inj h
    exact ⟨rfl, rfl⟩
  | null | boolean _ | integer _ | long _ | double _ | timestamp _ | string _ => cases h

/-- Two values of one rank are both numbers, both blobs, or of the same other kind. -/
@[elab_as_elim]
theorem rank_cases {P : Value → Value → Prop} {a b : Value} (h : a.rank = b.rank)
    (null : P .null .null) (boolean : ∀ x y, P (.boolean x) (.boolean y))
    (number : ∀ a b m n, a.magnitude? = some m → b.magnitude? = some n → P a b)
    (timestamp : ∀ x y, P (.timestamp x) (.timestamp y))
    (string : ∀ x y, P (.string x) (.string y))
    (blob : ∀ a b x y, a.bytes? = some x → b.bytes? = some y → P a b) : P a b := by
  cases a with
  | null =>
    cases b with
    | null => exact null
    | _ => cases h
  | boolean x =>
    cases b with
    | boolean y => exact boolean x y
    | _ => cases h
  | integer _ | long _ | double _ =>
    cases b with
    | integer _ | long _ | double _ => exact number _ _ _ _ rfl rfl
    | _ => cases h
  | timestamp x =>
    cases b with
    | timestamp y => exact timestamp x y
    | _ => cases h
  | string x =>
    cases b with
    | string y => exact string x y
    | _ => cases h
  | blob _ | binary _ =>
    cases b with
    | blob _ | binary _ => exact blob _ _ _ _ rfl rfl
    | _ => cases h

/-- The moments of two timestamps are in the order of the numbers for them. -/
def ComparesBy (number : Moment → ℤ) (a b : Value) : Prop :=
  ∀ m n, a = .timestamp m → b = .timestamp n → m.compare n = Ord.compare (number m) (number n)

/-- Values of one rank compare as their numbers or payloads. -/
theorem compares_compareSame {a b : Value} (hmoments : ComparesBy number a b)
    (h : a.rank = b.rank) :
    (compareSame a b).Compares (toLex (a.number?.getD .notANumber, a.payload number))
      (toLex (b.number?.getD .notANumber, b.payload number)) := by
  -- What is not a number stands at one and the same place on the line.
  have hpayload {xs ys : List ℤ} {order : Ordering} (horder : order.Compares xs ys) :
      order.Compares (toLex (NumberLine.notANumber, xs)) (toLex (NumberLine.notANumber, ys)) :=
    have hsame : Ordering.eq.Compares NumberLine.notANumber NumberLine.notANumber := rfl
    compares_then hsame fun _ => horder
  revert hmoments
  refine rank_cases h ?null ?boolean ?number ?timestamp ?string ?blob
  case null => exact fun _ => rfl
  case boolean =>
    intro x y _
    exact hpayload (compares_singleton (compares_bool x y))
  case number =>
    intro a b m n ha hb _
    obtain ⟨hnumber, hnone⟩ := position_of_magnitude ha
    obtain ⟨hnumber', hnone'⟩ := position_of_magnitude hb
    rw [compareSame_of_magnitude ha hb, hnumber, hnumber', hnone, hnone',
      ← Ordering.then_eq (o := m.compare n)]
    exact compares_then (Magnitude.compares_place m n) fun _ => rfl
  case timestamp =>
    intro x y hmoments
    refine hpayload (compares_singleton ?_)
    change (x.compare y).Compares (number x) (number y)
    rw [hmoments x y rfl rfl]
    exact compares_int (number x) (number y)
  case string =>
    intro x y _
    exact hpayload (compares_map compares_char x.toList y.toList)
  case blob =>
    intro a b x y ha hb _
    obtain ⟨hnone, hbytes⟩ := position_of_bytes ha
    obtain ⟨hnone', hbytes'⟩ := position_of_bytes hb
    rw [compareSame_of_bytes ha hb, hnone, hnone', hbytes, hbytes']
    exact hpayload (compares_map compares_byte x y)

/-- Values compare as their positions, if the numbers that these have for moments are in the right
order. -/
theorem compares_positionBy {a b : Value} (hmoments : ComparesBy number a b) :
    (a.compare b).Compares (a.positionBy number) (b.positionBy number) := by
  have hrank : (Ord.compare a.rank b.rank).Compares a.rank b.rank := by
    rw [← cmp_eq_compare]
    exact cmp_compares a.rank b.rank
  exact compares_then hrank (compares_compareSame hmoments)

/-- Values in step compare as their positions. -/
theorem compares_position {a b : Value} (h : a.InStep b) :
    (a.compare b).Compares a.position b.position :=
  compares_positionBy fun m n hm hn => Moment.compare_of_inStep (h m n hm hn)

theorem compare_self (a : Value) : a.compare a = .eq :=
  (compares_position a.inStep_self).eq_eq.mpr rfl

/-- The timestamps among some values are all in step, or all of them are readings of the clock of one
region. -/
def Aligned (vs : List Value) : Prop :=
  (∀ v ∈ vs, ∀ w ∈ vs, v.InStep w) ∨
    ∀ m n, .timestamp m ∈ vs → .timestamp n ∈ vs → m.clock.isShared n.clock = true

/-- Aligned values compare as positions in one linear order. -/
theorem Aligned.exists_number {vs : List Value} (h : Aligned vs) :
    ∃ number, ∀ v ∈ vs, ∀ w ∈ vs, ComparesBy number v w := by
  obtain hsteps | hshared := h
  · exact ⟨Moment.micros, fun v hv w hw m n hm hn =>
      Moment.compare_of_inStep (hsteps v hv w hw m n hm hn)⟩
  · refine ⟨fun m => m.reading.micros, ?_⟩
    rintro v hv w hw m n rfl rfl
    exact if_pos (hshared m n hv hw)

/-- What is at most a second one of some aligned values is at most whatever that one is at most. -/
theorem Aligned.isLE_trans {vs : List Value} (h : Aligned vs) {a b c : Value} (ha : a ∈ vs)
    (hb : b ∈ vs) (hc : c ∈ vs) (hab : (a.compare b).isLE = true) (hbc : (b.compare c).isLE = true) :
    (a.compare c).isLE = true := by
  obtain ⟨number, hmoments⟩ := h.exists_number
  rw [Ordering.isLE_iff_ne_gt] at hab hbc ⊢
  have hab := (compares_positionBy (hmoments a ha b hb)).ne_gt.mp hab
  have hbc := (compares_positionBy (hmoments b hb c hc)).ne_gt.mp hbc
  exact (compares_positionBy (hmoments a ha c hc)).ne_gt.mpr (hab.trans hbc)

/-- Two values compare the other way round when they are exchanged. -/
theorem compare_swap (a b : Value) : a.compare b = (b.compare a).swap := by
  by_cases h : ∃ m n, a = .timestamp m ∧ b = .timestamp n
  · obtain ⟨m, n, rfl, rfl⟩ := h
    exact m.compare_swap n
  · -- Only of two timestamps the numbers would matter.
    have hab : ComparesBy Moment.micros a b := fun m n hm hn => absurd ⟨m, n, hm, hn⟩ h
    have hba : ComparesBy Moment.micros b a := fun m n hm hn => absurd ⟨n, m, hn, hm⟩ h
    exact (compares_positionBy hab).inj (compares_positionBy hba).swap

instance : Std.OrientedCmp compare where
  eq_swap {a b} := compare_swap a b

/-- A minute before three on the last night of summer time, before the clock is set back. -/
def beforeChange : Moment :=
  ⟨⟨⟨2024, 10, 27, by decide⟩, ⟨10740000000, by decide⟩⟩,
    .regional "Europe/Berlin" 7200000000 true false⟩

/-- A minute past two in the same night, after the clock was set back. -/
def afterChange : Moment :=
  ⟨⟨⟨2024, 10, 27, by decide⟩, ⟨7260000000, by decide⟩⟩,
    .regional "Europe/Berlin" 3600000000 true true⟩

/-- The instant of the change, on a clock of universal time. -/
def change : Moment := ⟨⟨⟨2024, 10, 27, by decide⟩, ⟨3600000000, by decide⟩⟩, .universal⟩

end Value

end RecordStore
