import RecordStore.Proofs.Stream.Trace

/-!
# What pages deliver

The records that a consumer is due, computed from the pages alone: of each page as many records as
were asked for, up to the page that ends the stream. A request asks for a full page, or for what the
limit leaves if that is less. Nothing here knows how a stream keeps its books.
-/

namespace RecordStore

/-- The records of some pages, and whether the last of them has ended the stream. -/
structure Delivery where
  records : List Record := []
  ended : Bool := false

namespace Delivery

variable {pageSize : Nat} {limit : Option Nat}

/-- The number of records to ask for when some have been served. -/
def sizeAfter (pageSize : Nat) (limit : Option Nat) (served : Nat) : Nat :=
  match limit with
  | none => pageSize
  | some n => min pageSize (n - served)

/-- Whether a page is the last one when some records have been served, its own included. -/
def endsAt (limit : Option Nat) (page : Page) (served : Nat) : Bool :=
  page.records.isEmpty || page.cursor.isNone || !page.more || limit.any (· ≤ served)

/-- A page is not the last one if it has records and a cursor, more is promised, and the limit leaves
room. -/
theorem endsAt_eq_false_iff {page : Page} {served : Nat} :
    endsAt limit page served = false ↔
      page.records.isEmpty = false ∧ page.cursor.isNone = false ∧ page.more = true ∧
        limit.any (· ≤ served) = false := by
  simp [endsAt, and_assoc]

/-- A page that brings records is not the last one exactly if the limit leaves something, more is
reported, and there is a cursor. -/
theorem not_endsAt_of_brought {page : Page} (h : page.records.isEmpty = false) (served : Nat) :
    (!endsAt limit page served) =
      (limit.map (· - served) ≠ some 0 && page.more && page.cursor.isSome) := by
  rw [endsAt, h]
  cases limit with
  | none => cases page.cursor <;> simp
  | some n =>
    have hleft : n - served = 0 ↔ n ≤ served := Nat.sub_eq_zero_iff_le
    by_cases hused : n ≤ served
    · simp [hused]
    · cases page.cursor <;> simp [hleft, hused]

/-- Adds the next page. -/
def add (pageSize : Nat) (limit : Option Nat) (d : Delivery) (page : Page) : Delivery :=
  if d.ended then d
  else
    let records := d.records ++ page.records.take (sizeAfter pageSize limit d.records.length)
    ⟨records, endsAt limit page records.length⟩

/-- What pages deliver. -/
def ofPages (pageSize : Nat) (limit : Option Nat) (pages : List Page) : Delivery :=
  pages.foldl (add pageSize limit) {}

/-- A further page is added to what the others deliver. -/
theorem ofPages_append (pages : List Page) (page : Page) :
    ofPages pageSize limit (pages ++ [page]) =
      (ofPages pageSize limit pages).add pageSize limit page := by
  rw [ofPages, List.foldl_append]
  rfl

/-- A page adds what was asked for, and ends the stream by the rules. -/
theorem add_of_live {d : Delivery} (hlive : d.ended = false) (page : Page) :
    d.add pageSize limit page =
      ⟨d.records ++ page.records.take (sizeAfter pageSize limit d.records.length),
        endsAt limit page
          (d.records ++ page.records.take (sizeAfter pageSize limit d.records.length)).length⟩ := by
  simp [add, hlive]

/-- A delivery keeps to a limit, and has room left in it until it ends. -/
structure Within (limit : Option Nat) (d : Delivery) : Prop where
  bounded : ∀ n, limit = some n → d.records.length ≤ n
  room : d.ended = false → ∀ n, limit = some n → d.records.length < n

/-- A page keeps the delivery within the limit. -/
theorem Within.add {d : Delivery} (h : Within limit d) (page : Page) :
    Within limit (d.add pageSize limit page) := by
  cases hended : d.ended with
  | true =>
    rw [Delivery.add, if_pos hended]
    exact h
  | false =>
    rw [add_of_live hended]
    constructor
    · rintro n rfl
      have hroom := h.room hended n rfl
      simp only [sizeAfter, List.length_append, List.length_take]
      omega
    · rintro hlive n rfl
      -- the limit itself is among the reasons to end
      have hroom := (endsAt_eq_false_iff.mp hlive).2.2.2
      exact Nat.lt_of_not_le (of_decide_eq_false hroom)

/-- Further pages keep the delivery within the limit. -/
theorem Within.foldl_add {d : Delivery} (h : Within limit d) (pages : List Page) :
    Within limit (pages.foldl (Delivery.add pageSize limit) d) := by
  induction pages generalizing d with
  | nil => exact h
  | cons page rest ih => exact ih (h.add page)

/-- What pages deliver keeps to a positive limit. -/
theorem within_ofPages (hlimit : ∀ n, limit = some n → 0 < n) (pages : List Page) :
    Within limit (ofPages pageSize limit pages) := by
  have hempty : Within limit {} := ⟨fun n _ => Nat.zero_le n, fun _ => hlimit⟩
  exact hempty.foldl_add pages

end Delivery

/-- A limit that limits anything is positive. -/
theorem pos_of_limit {limit : Option Int} {n : Nat}
    (h : (limit.bind fun given => if 0 < given then some given.toNat else none) = some n) :
    0 < n := by
  obtain ⟨given, -, hgiven⟩ := Option.bind_eq_some_iff.mp h
  split at hgiven
  · next hpositive =>
    cases hgiven
    omega
  · cases hgiven

/-- A limit that counts is positive. -/
theorem NativeQuery.effectiveLimit_pos {q : NativeQuery} {n : Nat}
    (h : q.effectiveLimit = some n) : 0 < n :=
  pos_of_limit h

end RecordStore
