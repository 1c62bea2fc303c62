import RecordStore.Calendar.Stamp
import RecordStore.Proofs.Calendar.Instants
import RecordStore.Proofs.Document.Matching
import RecordStore.Proofs.Value.Order

/-!
# Timestamps in documents

A document holds a timestamp as its microseconds since the beginning of 1970. Inside the years 1 to
9999 each timestamp is read back from its number, the number fits a word of 64 bits, and numbers are
in the order of the instants (`Document.timestamps_in_order`). So a database that knows only the
numbers compares the timestamps.
-/

namespace RecordStore

/-- The moment that a time names; an unnamed clock is taken to show universal time. -/
def Datum.moment? : Datum → Option Moment
  | .clock t => some ⟨t, .universal⟩
  | .moment m => some m
  | _ => none

namespace Value

/-- Data that are a moment give its timestamp. -/
theorem ofTimestamp_of_moment? {d : Datum} {m : Moment} (h : d.moment? = some m) :
    ofTimestamp d = ofMoment m := by
  cases d <;> cases h <;> rfl

end Value

namespace Document

/-- How a document keeps the instant that a time names: as the microseconds of a timestamp of
universal time, which is read back from them. -/
structure KeepsInstant (d : Datum) (instant : Int) (stored : Moment) : Prop where
  converts : Value.ofTimestamp d = .ok (.timestamp stored)
  universal : stored.clock = .universal
  sameInstant : stored.micros = instant
  written : (Value.timestamp stored).toField = .long instant
  readBack : Value.ofField true (.long instant) = .ok (.timestamp stored)
  fits : Calendar.isWord instant = true

/-- A moment within the calendar has a timestamp that keeps its instant. -/
theorem exists_keepsInstant {d : Datum} {m : Moment} (hd : d.moment? = some m)
    (hm : m.InCalendar) : ∃ u, KeepsInstant d m.micros u := by
  obtain ⟨u, huniversal, hoffset, hmicros⟩ := Moment.exists_toUniversal? hm
  refine ⟨u, ?_, hoffset, hmicros, congrArg Datum.long hmicros, ?_, ?_⟩
  · rw [Value.ofTimestamp_of_moment? hd, Value.ofMoment, huniversal]
  · rw [← hmicros]
    exact Value.ofMicros_micros hoffset
  · obtain ⟨hafter, hbefore⟩ := hm
    rw [DateTime.first_micros] at hafter
    rw [DateTime.last_micros] at hbefore
    simp only [Calendar.isWord, Bool.and_eq_true, decide_eq_true_eq]
    omega

/-- A database that compares the numbers of two timestamps compares the timestamps. -/
theorem accepts_timestamp {accepts : Datum → Document → Prop} (laws : MatchLaws accepts)
    {doc : Document} {name : String} (hname : PlainName name) {u v : Moment} (hstep : u.InStep v)
    (hstored : Assoc.get? name doc = some (Value.timestamp u).toField) (c : Comparison) :
    accepts (Clause.compares (.text name) c (.timestamp v)).toDatum doc ↔
      c.holds ((Value.timestamp u).compare (.timestamp v)) = true := by
  have hfield : doc.PlainField name :=
    ⟨hname, fun items hitems => Value.toField_ne_list _ items (Option.some.inj (hstored.symm.trans hitems))⟩
  -- In their fields both are whole numbers, which are of one kind and in the order of the timestamps.
  refine (laws.compares doc name c _ _ _ _ hfield (Value.timestamp v).ofField_inField rfl hstored
    (Value.timestamp u).ofField_inField rfl).trans ?_
  rw [Value.compare_inField (v := .timestamp u) (w := .timestamp v) rfl
    (Value.inStep_timestamp.mpr hstep)]

/-- Take two times, each the reading of an unnamed clock or one with an offset, that lie in the
years 1 to 9999 of universal time. Each becomes a timestamp of universal time of the same instant,
is written as the microseconds of that instant, which fit a word of 64 bits, and read back from them
as it was. The numbers compare as the timestamps do, and that is the order of the instants, which is
also the order of what a clock of universal time shows, from the year down to the microsecond.
Between the first and the last instant no number is left out. And so a database that compares a
field with such a number finds what compares so with the timestamp. -/
theorem timestamps_in_order {a b : Datum} {m n : Moment} (ha : a.moment? = some m)
    (hb : b.moment? = some n) (hm : m.InCalendar) (hn : n.InCalendar) :
    ∃ u v : Moment, KeepsInstant a m.micros u ∧ KeepsInstant b n.micros v ∧
      (Value.timestamp u).compare (.timestamp v) = Ord.compare m.micros n.micros ∧
      ((Value.timestamp u).compare (.timestamp v)).Compares m.micros n.micros ∧
      ((Value.timestamp u).compare (.timestamp v)).Compares u.reading.shown v.reading.shown ∧
      (∀ k, DateTime.first.micros ≤ k → k ≤ DateTime.last.micros →
        ∃ d w, KeepsInstant d k w) ∧
      ∀ accepts, MatchLaws accepts → ∀ (doc : Document) name c, PlainName name →
        Assoc.get? name doc = some (Value.timestamp u).toField →
        (accepts (Clause.compares (.text name) c (.timestamp v)).toDatum doc ↔
          c.holds ((Value.timestamp u).compare (.timestamp v)) = true) := by
  obtain ⟨u, hu⟩ := exists_keepsInstant ha hm
  obtain ⟨v, hv⟩ := exists_keepsInstant hb hn
  -- Both are kept in universal time, and are compared by their instants.
  have hstep : u.InStep v := Moment.inStep_of_universal hu.universal
  have horder : (Value.timestamp u).compare (.timestamp v) = Ord.compare m.micros n.micros := by
    rw [Value.compare_timestamp, Moment.compare_of_inStep hstep, hu.sameInstant, hv.sameInstant]
  refine ⟨u, v, hu, hv, horder, ?_, ?_, fun k hfirst hlast => ?_,
    fun accepts laws doc name c hname hstored => accepts_timestamp laws hname hstep hstored c⟩
  · rw [horder]
    exact compares_int m.micros n.micros
  · rw [Value.compare_timestamp, Moment.compare_of_inStep hstep,
      Moment.micros_of_universal hu.universal, Moment.micros_of_universal hv.universal]
    exact DateTime.compares_shown u.reading v.reading
  · obtain ⟨t, rfl⟩ := DateTime.exists_micros hfirst hlast
    have hmicros : (⟨t, .universal⟩ : Moment).micros = t.micros := Moment.micros_of_universal rfl
    have hcalendar : (⟨t, .universal⟩ : Moment).InCalendar := by
      rw [Moment.InCalendar, hmicros]
      exact ⟨hfirst, hlast⟩
    rw [← hmicros]
    exact ⟨.clock t, exists_keepsInstant rfl hcalendar⟩

/-- Half past midnight on the first day of 1970. -/
def newYear : DateTime := ⟨⟨1970, 1, 1, by decide⟩, ⟨1800000000, by decide⟩⟩

/-- A minute before the end of 1969. -/
def newYearsEve : DateTime := ⟨⟨1969, 12, 31, by decide⟩, ⟨86340000000, by decide⟩⟩

/-- On a clock an hour ahead, the new year has begun while universal time still shows the old one; both
instants have negative numbers. -/
theorem timestamps_in_order_over_new_year :
    (Moment.mk newYear (.fixed 3600000000)).InCalendar ∧ (Moment.mk newYearsEve .universal).InCalendar ∧
      ∃ u v : Moment, KeepsInstant (.moment ⟨newYear, .fixed 3600000000⟩) (-1800000000) u ∧
        KeepsInstant (.clock newYearsEve) (-60000000) v ∧
        (Value.timestamp u).compare (.timestamp v) = .lt := by
  have hm : (Moment.mk newYear (.fixed 3600000000)).InCalendar := by decide +kernel
  have hn : (Moment.mk newYearsEve .universal).InCalendar := by decide +kernel
  have hmicros : (Moment.mk newYear (.fixed 3600000000)).micros = -1800000000 := by decide +kernel
  have hmicros' : (Moment.mk newYearsEve .universal).micros = -60000000 := by decide +kernel
  obtain ⟨u, v, hu, hv, horder, -⟩ :=
    timestamps_in_order (a := .moment _) (b := .clock _) rfl rfl hm hn
  rw [hmicros] at hu horder
  rw [hmicros'] at hv horder
  exact ⟨hm, hn, u, v, hu, hv, horder⟩

end Document

end RecordStore
