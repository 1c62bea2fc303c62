import Mathlib.Order.Lattice
import RecordStore.Proofs.Predicate.Evaluation

/-!
# Levels of predicate trees

The search for the deepest level of a tree ends after no more visits than the tree has nodes, with its
height, or with one level more than allowed if that is less (`Predicate.exists_search_root`). So the
depth of a tree is its height as far as trees may go (`Predicate.depth_eq`), and the check of the depth
refuses exactly the trees that are higher than allowed (`Predicate.checkDepth_eq`).
-/

namespace RecordStore.Predicate

mutual

/-- The number of levels of a tree. -/
def height : Predicate → Nat
  | .node _ _ children => heights children + 1

/-- The number of levels of the highest of some trees. -/
def heights : List Predicate → Nat
  | [] => 0
  | child :: rest => max (height child) (heights rest)

end

/-- The highest child bounds all children. -/
theorem heights_le_iff {children : List Predicate} {n : Nat} :
    heights children ≤ n ↔ ∀ child ∈ children, child.height ≤ n := by
  induction children with
  | nil => simp [heights]
  | cons child rest ih => rw [heights, Nat.max_le, ih, List.forall_mem_cons]

/-- A node alone is one level high. -/
theorem height_pos (p : Predicate) : 0 < p.height := by
  cases p
  exact Nat.succ_pos _

/-! ## The search -/

/-- The nodes one level below a visited one, as they are put on the stack of the search. -/
def nextLevel (tree : Predicate) (level : Nat) : List (Predicate × Nat) :=
  (tree.children.map fun child => (child, level + 1)).reverse

/-- From the deepest level met so far and a stack of nodes, the search ends after so many visits with
a result. -/
inductive Search : Nat → List (Predicate × Nat) → Nat → Nat → Prop
  | done {deepest : Nat} : Search deepest [] 0 deepest
  | tooDeep {deepest level : Nat} {tree : Predicate} {rest : List (Predicate × Nat)}
      (h : maxPredicateDepth < level) : Search deepest ((tree, level) :: rest) 1 level
  | visit {deepest level visits result : Nat} {tree : Predicate} {rest : List (Predicate × Nat)}
      (h : level ≤ maxPredicateDepth)
      (next : Search (max deepest level) (nextLevel tree level ++ rest) visits result) :
      Search deepest ((tree, level) :: rest) (visits + 1) result

variable {deepest fuel visits result : Nat} {stack : List (Predicate × Nat)}

/-- A search that ends within the visits it may make gives its result. -/
theorem Search.deepestLevel_eq (h : Search deepest stack visits result) (hfuel : visits ≤ fuel) :
    deepestLevel fuel deepest stack = result := by
  induction h generalizing fuel with
  | done => cases fuel <;> rfl
  | tooDeep h =>
    obtain ⟨fuel, rfl⟩ := Nat.exists_eq_add_of_le' hfuel
    rw [deepestLevel, if_pos h]
  | visit h _ ih =>
    obtain ⟨fuel, rfl⟩ := Nat.exists_eq_add_of_le' (Nat.le_of_add_left_le hfuel)
    rw [deepestLevel, if_neg (Nat.not_lt.mpr h)]
    exact ih (Nat.le_of_add_le_add_right hfuel)

/-- The number of nodes of the trees on a stack. -/
def pending : List (Predicate × Nat) → Nat
  | [] => 0
  | (tree, _) :: rest => tree.size + pending rest

/-- The deepest level that the trees on a stack reach. -/
def reach : List (Predicate × Nat) → Nat
  | [] => 0
  | (tree, level) :: rest => max (level + tree.height - 1) (reach rest)

theorem pending_append (stack more : List (Predicate × Nat)) :
    pending (stack ++ more) = pending stack + pending more := by
  induction stack with
  | nil => rw [List.nil_append, pending, Nat.zero_add]
  | cons entry rest ih => rw [List.cons_append, pending, pending, ih, Nat.add_assoc]

/-- However they are ordered, the children of a node have all the nodes below it. -/
theorem pending_children (children : List Predicate) (level : Nat) :
    pending (children.map fun child => (child, level)).reverse = sizes children := by
  induction children with
  | nil => rfl
  | cons child rest ih =>
    rw [List.map_cons, List.reverse_cons, pending_append, ih, pending, pending, sizes, Nat.add_zero,
      Nat.add_comm]

/-- A visit takes one node from the stack. -/
theorem pending_visit (tree : Predicate) (level : Nat) (rest : List (Predicate × Nat)) :
    pending (nextLevel tree level ++ rest) + 1 = pending ((tree, level) :: rest) := by
  obtain ⟨connective, conditions, children⟩ := tree
  rw [pending_append, nextLevel, Predicate.children, pending_children, pending, size, Nat.add_right_comm]

/-- A level bounds what all trees on a stack reach. -/
theorem reach_le_iff {n : Nat} :
    reach stack ≤ n ↔ ∀ entry ∈ stack, entry.2 + entry.1.height ≤ n + 1 := by
  induction stack with
  | nil => simp [reach]
  | cons entry rest ih => rw [reach, Nat.max_le, ih, List.forall_mem_cons, Nat.sub_le_iff_le_add]

/-- A visit leaves the deepest level to be met what it was. -/
theorem reach_visit (tree : Predicate) (level : Nat) (rest : List (Predicate × Nat)) :
    max level (reach (nextLevel tree level ++ rest)) = reach ((tree, level) :: rest) := by
  obtain ⟨connective, conditions, below⟩ := tree
  -- Both sides have the same upper bounds.
  refine eq_of_forall_ge_iff fun n => ?_
  have hbelow : (∀ child ∈ below, level + 1 + child.height ≤ n + 1) ∧ level ≤ n ↔
      level + (heights below + 1) ≤ n + 1 := by
    constructor
    · rintro ⟨hall, hlevel⟩
      have hheights : heights below ≤ n - level := heights_le_iff.mpr fun child hc => by
        have hchild := hall child hc
        omega
      omega
    · intro h
      refine ⟨fun child hc => ?_, by omega⟩
      have hchild := heights_le_iff.mp (Nat.le_refl (heights below)) child hc
      omega
  rw [Nat.max_le, reach_le_iff, reach_le_iff, List.forall_mem_append, List.forall_mem_cons, nextLevel]
  simp only [List.mem_reverse, List.forall_mem_map, Predicate.children, height]
  rw [← hbelow, and_comm, and_right_comm]

/-- The search ends, after no more visits than there are nodes, with the deepest level, or with one
level more than allowed if that is too deep. -/
theorem exists_search (hdeepest : deepest ≤ maxPredicateDepth)
    (hstack : ∀ entry ∈ stack, entry.2 ≤ maxPredicateDepth + 1) :
    ∃ visits ≤ pending stack,
      Search deepest stack visits (min (max deepest (reach stack)) (maxPredicateDepth + 1)) := by
  -- Each visit takes a node from the stack and leaves fewer pending.
  induction hn : pending stack generalizing deepest stack with
  | zero =>
    cases stack with
    | nil =>
      refine ⟨0, Nat.le_refl 0, ?_⟩
      rw [reach, Nat.max_zero, Nat.min_eq_left (Nat.le_succ_of_le hdeepest)]
      exact .done
    | cons entry rest =>
      rw [← pending_visit entry.1 entry.2 rest] at hn
      cases hn
  | succ n ih =>
    cases stack with
    | nil => cases hn
    | cons entry rest =>
      obtain ⟨tree, level⟩ := entry
      obtain ⟨hlevel, hrest⟩ := List.forall_mem_cons.mp hstack
      by_cases hdeep : maxPredicateDepth < level
      · obtain rfl : level = maxPredicateDepth + 1 := Nat.le_antisymm hlevel hdeep
        have hreach : maxPredicateDepth + 1 ≤ max deepest (reach ((tree, maxPredicateDepth + 1) :: rest)) := by
          have hroot := tree.height_pos
          rw [reach]
          omega
        rw [Nat.min_eq_right hreach]
        exact ⟨1, Nat.succ_le_succ (Nat.zero_le n), .tooDeep hdeep⟩
      · rw [Nat.not_lt] at hdeep
        have hnext : ∀ next ∈ nextLevel tree level ++ rest, next.2 ≤ maxPredicateDepth + 1 := by
          refine List.forall_mem_append.mpr ⟨fun next hmem => ?_, hrest⟩
          obtain ⟨child, -, rfl⟩ := List.mem_map.mp (List.mem_reverse.mp hmem)
          exact Nat.succ_le_succ hdeep
        rw [← pending_visit tree level rest] at hn
        obtain ⟨visits, hvisits, hsearch⟩ :=
          ih (Nat.max_le.mpr ⟨hdeepest, hdeep⟩) hnext (Nat.succ.inj hn)
        rw [Nat.max_assoc, reach_visit] at hsearch
        exact ⟨visits + 1, Nat.succ_le_succ hvisits, .visit hdeep hsearch⟩

/-- The search through a tree ends with its height as far as trees may go. -/
theorem exists_search_root (p : Predicate) :
    ∃ visits ≤ p.size, Search 0 [(p, 1)] visits (min p.height (maxPredicateDepth + 1)) := by
  have hlevel : ∀ entry ∈ [(p, 1)], entry.2 ≤ maxPredicateDepth + 1 :=
    List.forall_mem_singleton.mpr (Nat.succ_le_succ (Nat.zero_le _))
  obtain ⟨visits, hvisits, hsearch⟩ := exists_search (Nat.zero_le _) hlevel
  rw [reach, reach, Nat.max_zero, Nat.zero_max, Nat.add_sub_cancel_left] at hsearch
  exact ⟨visits, hvisits, hsearch⟩

/-- The depth of a tree is its height, or one level more than allowed if it is higher than that. -/
theorem depth_eq (p : Predicate) : p.depth = min p.height (maxPredicateDepth + 1) := by
  obtain ⟨visits, hvisits, hsearch⟩ := p.exists_search_root
  exact hsearch.deepestLevel_eq hvisits

/-- Exactly the trees that are higher than allowed are too deep. -/
theorem checkDepth_eq (p : Predicate) :
    p.checkDepth =
      if maxPredicateDepth < p.height then .error (.query .treeTooDeep .null) else .ok () := by
  rw [checkDepth, depth_eq]
  refine if_congr ?_ rfl rfl
  omega

/-- A predicate within the limit passes the check of its depth. -/
theorem checkDepth_of_height_le {p : Predicate} (h : p.height ≤ maxPredicateDepth) :
    p.checkDepth = .ok () := by
  rw [checkDepth_eq, if_neg (Nat.not_lt.mpr h)]

end RecordStore.Predicate
