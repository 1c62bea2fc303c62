import RecordStore.Calendar.DateTime

/-!
# Clocks in step

Moments are in the order of their instants, except that two readings of the clock of one region are
in the order of what the clock showed. Both orders are the same as long as the clock was not set
between the readings, that is, while the moments are in step (`Moment.compare_of_inStep`).
-/

namespace RecordStore

theorem Clock.isShared_comm (a b : Clock) : a.isShared b = b.isShared a := by
  cases a with
  | fixed offset => cases b <;> rfl
  | regional region offset ambiguous repeated =>
    cases b with
    | fixed offset => rfl
    | regional other offset ambiguous repeated => exact decide_eq_decide.mpr eq_comm

namespace Moment

variable {a b : Moment}

/-- Numbers that are moved by the same amount compare as before. -/
theorem compare_sub_right (m n offset : Int) :
    Ord.compare (m - offset) (n - offset) = Ord.compare m n := by
  change compareOfLessAndEq _ _ = compareOfLessAndEq _ _
  simp only [compareOfLessAndEq, Int.sub_lt_sub_right_iff, Int.sub_left_inj]

/-- If both are read on the clock of one region, it is as far ahead of universal time at one as at the
other. -/
def InStep (a b : Moment) : Prop := a.clock.isShared b.clock = true → a.offset = b.offset

instance : Decidable (a.InStep b) := inferInstanceAs (Decidable (_ → _))

/-- A clock that runs ahead by the same at all times is shared with no other. -/
theorem inStep_of_fixed {offset : Int} (h : a.clock = .fixed offset) : a.InStep b := by
  intro hshared
  rw [h] at hshared
  cases hshared

/-- A moment of the universal clock is in step with every other. -/
theorem inStep_of_universal (h : a.clock = .universal) : a.InStep b := inStep_of_fixed h

theorem compare_self (m : Moment) : m.compare m = .eq := by
  rw [compare, Int.compare_eq_eq.mpr rfl, Int.compare_eq_eq.mpr rfl, ite_self]

/-- A reading equals itself even if it is ambiguous, since its clock is shared with itself. -/
theorem same_self (m : Moment) : m.same m = true := by
  have hclock : (m.clock.isShared m.clock || !(m.clock.isAmbiguous || m.clock.isAmbiguous)) = true := by
    cases m.clock with
    | fixed offset => rfl
    | regional region offset ambiguous repeated =>
      rw [Clock.isShared, decide_eq_true rfl, Bool.true_or]
  rw [same, compare_self, decide_eq_true rfl, hclock, Bool.and_self]

theorem compare_swap (a b : Moment) : a.compare b = (b.compare a).swap := by
  rw [compare, compare, Clock.isShared_comm b.clock a.clock]
  split
  · exact (Int.compare_swap _ _).symm
  · exact (Int.compare_swap _ _).symm

/-- Moments in step are in the order of their instants. -/
theorem compare_of_inStep (h : a.InStep b) : a.compare b = Ord.compare a.micros b.micros := by
  rw [compare]
  split
  · next hshared =>
    -- Both readings are by the same time ahead of their instants.
    rw [micros, micros, h hshared]
    exact (compare_sub_right _ _ _).symm
  · rfl

end Moment

end RecordStore
