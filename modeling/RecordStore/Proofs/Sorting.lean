import Mathlib.Data.List.Chain
import RecordStore.Proofs.Result
import RecordStore.Sorting

/-!
# What sorting keeps

Whatever the comparison answers, sorting only moves elements (`Sorting.perm_of_sort`). It fails only
where the comparison does, so that it succeeds on elements that can all be compared
(`Sorting.exists_sort`). If the comparison is that of an order, they come out in this order
(`Sorting.pairwise_sort`).
-/

namespace RecordStore.Sorting

variable {α ε : Type} {less : α → α → Except ε Bool} {xs ys run rest : List α} {a : α}

/-! ## Elements -/

/-- Insertion keeps the items. -/
theorem perm_of_insert (h : insert less xs a = .ok ys) : ys.Perm (a :: xs) := by
  obtain ⟨point, -, hys⟩ := Result.bind_eq_ok.mp h
  obtain rfl := Except.ok.inj hys
  refine List.perm_middle.trans ?_
  rw [List.take_append_drop]

/-- Insertion of one item after the other keeps the items. -/
theorem perm_of_foldlM (h : rest.foldlM (insert less) run = .ok ys) : ys.Perm (run ++ rest) := by
  induction rest generalizing run with
  | nil =>
    obtain rfl := Except.ok.inj h
    rw [List.append_nil]
  | cons a rest ih =>
    obtain ⟨more, hmore, h⟩ := Result.bind_eq_ok.mp h
    have hinserted := (perm_of_insert hmore).append_right rest
    exact (ih h).trans (hinserted.trans List.perm_middle.symm)

/-- The first run and the rest are the items. -/
theorem perm_of_splitRun (h : splitRun less xs = .ok (run, rest)) : (run ++ rest).Perm xs := by
  unfold splitRun at h
  split at h
  · next a b others =>
    obtain ⟨descending, -, h⟩ := Result.bind_eq_ok.mp h
    obtain ⟨count, -, h⟩ := Result.bind_eq_ok.mp h
    obtain ⟨rfl, rfl⟩ := Prod.mk.inj (Except.ok.inj h)
    refine List.Perm.trans (List.Perm.append_right _ ?_)
      (List.Perm.of_eq (List.take_append_drop (count + 2) _))
    split
    · exact List.reverse_perm _
    · exact List.Perm.refl _
  · obtain ⟨rfl, rfl⟩ := Prod.mk.inj (Except.ok.inj h)
    rw [List.append_nil]

/-- Sorting keeps all elements. -/
theorem perm_of_sort (h : sort less xs = .ok ys) : ys.Perm xs := by
  obtain ⟨⟨run, rest⟩, hsplit, h⟩ := Result.bind_eq_ok.mp h
  exact (perm_of_foldlM h).trans (perm_of_splitRun hsplit)

/-! ## Answers -/

section

variable {P : α → Prop} (hless : ∀ a, P a → ∀ b, P b → ∃ answer, less a b = .ok answer)
include hless

/-- The length of the first run is found wherever the items can be compared. -/
theorem exists_runLength (descending : Bool) (ha : P a) (hxs : ∀ x ∈ xs, P x) :
    ∃ count, runLength less descending a xs = .ok count := by
  induction xs generalizing a with
  | nil => exact ⟨0, rfl⟩
  | cons b rest ih =>
    obtain ⟨hb, hrest⟩ := List.forall_mem_cons.mp hxs
    obtain ⟨answer, hanswer⟩ := hless b hb a ha
    obtain ⟨count, hcount⟩ := ih hb hrest
    rw [runLength]
    by_cases hsame : answer = descending
    · refine ⟨count + 1, Result.bind_eq_ok.mpr ⟨answer, hanswer, ?_⟩⟩
      rw [if_pos hsame, hcount]
      rfl
    · refine ⟨0, Result.bind_eq_ok.mpr ⟨answer, hanswer, ?_⟩⟩
      rw [if_neg hsame]
      rfl

/-- Items that can be compared have a first run. -/
theorem exists_splitRun (hxs : ∀ x ∈ xs, P x) : ∃ split, splitRun less xs = .ok split := by
  unfold splitRun
  split
  · next a b others =>
    obtain ⟨ha, hothers⟩ := List.forall_mem_cons.mp hxs
    obtain ⟨hb, hothers⟩ := List.forall_mem_cons.mp hothers
    obtain ⟨descending, hdescending⟩ := hless b hb a ha
    obtain ⟨count, hcount⟩ := exists_runLength hless descending hb hothers
    exact ⟨_, Result.bind_eq_ok.mpr ⟨descending, hdescending,
      Result.bind_eq_ok.mpr ⟨count, hcount, rfl⟩⟩⟩
  · exact ⟨_, rfl⟩

/-- The place of an item is found wherever the items can be compared. -/
theorem exists_insertionPoint (ha : P a) {items : Array α} (hitems : ∀ x ∈ items, P x)
    (fuel low high : Nat) : ∃ point, insertionPoint less a items fuel low high = .ok point := by
  induction fuel generalizing low high with
  | zero => exact ⟨low, rfl⟩
  | succ fuel ih =>
    rw [insertionPoint]
    split
    · exact ⟨low, rfl⟩
    · split
      · exact ⟨low, rfl⟩
      · next b hb =>
        obtain ⟨answer, hanswer⟩ := hless a ha b (hitems b (Array.mem_of_getElem? hb))
        rw [hanswer]
        cases answer with
        | true => exact ih _ _
        | false => exact ih _ _

/-- An item that can be compared with the others is inserted. -/
theorem exists_insert (ha : P a) (hxs : ∀ x ∈ xs, P x) : ∃ ys, insert less xs a = .ok ys := by
  have hitems : ∀ x ∈ xs.toArray, P x := fun x hx => hxs x (List.mem_toArray.mp hx)
  obtain ⟨point, hpoint⟩ := exists_insertionPoint hless ha hitems (xs.length + 1) 0 xs.length
  exact ⟨_, Result.bind_eq_ok.mpr ⟨point, hpoint, rfl⟩⟩

/-- Items that can be compared are inserted one after the other. -/
theorem exists_foldlM (hrun : ∀ x ∈ run, P x) (hrest : ∀ x ∈ rest, P x) :
    ∃ ys, rest.foldlM (insert less) run = .ok ys := by
  induction rest generalizing run with
  | nil => exact ⟨run, rfl⟩
  | cons a rest ih =>
    obtain ⟨ha, hrest⟩ := List.forall_mem_cons.mp hrest
    obtain ⟨more, hmore⟩ := exists_insert hless ha hrun
    have hall : ∀ x ∈ more, P x := fun x hx =>
      List.forall_mem_cons.mpr ⟨ha, hrun⟩ x ((perm_of_insert hmore).mem_iff.mp hx)
    obtain ⟨ys, hys⟩ := ih hall hrest
    exact ⟨ys, Result.bind_eq_ok.mpr ⟨more, hmore, hys⟩⟩

/-- Elements that can be compared are sorted. -/
theorem exists_sort (hxs : ∀ x ∈ xs, P x) : ∃ ys, sort less xs = .ok ys := by
  obtain ⟨⟨run, rest⟩, hsplit⟩ := exists_splitRun hless hxs
  have hall : ∀ x ∈ run ++ rest, P x := fun x hx =>
    hxs x ((perm_of_splitRun hsplit).mem_iff.mp hx)
  obtain ⟨hrun, hrest⟩ := List.forall_mem_append.mp hall
  obtain ⟨ys, hys⟩ := exists_foldlM hless hrun hrest
  exact ⟨ys, Result.bind_eq_ok.mpr ⟨_, hsplit, hys⟩⟩

end

/-! ## Order -/

section

variable {P : α → Prop} {R : α → α → Prop} [IsTrans α R]
  (hanswer : ∀ a, P a → ∀ b, P b → ∀ answer, less a b = .ok answer → if answer then R a b else R b a)
include hanswer

omit [IsTrans α R] in
/-- As far as a run goes on, each element is in order with the one before it. -/
theorem isChain_run {descending : Bool} {count : Nat} (ha : P a) (hxs : ∀ x ∈ xs, P x)
    (h : runLength less descending a xs = .ok count) :
    (a :: xs.take count).IsChain fun x y => if descending then R y x else R x y := by
  induction xs generalizing a count with
  | nil =>
    rw [List.take_nil]
    exact .singleton a
  | cons b rest ih =>
    obtain ⟨hb, hrest⟩ := List.forall_mem_cons.mp hxs
    obtain ⟨answer, hlast, h⟩ := Result.bind_eq_ok.mp h
    split at h
    -- The run goes on as long as the answers agree.
    · next hsame =>
      obtain ⟨more, hmore, h⟩ := Result.bind_eq_ok.mp h
      obtain rfl := Except.ok.inj h
      rw [List.take_succ_cons, List.isChain_cons_cons]
      exact ⟨hsame ▸ hanswer b hb a ha answer hlast, ih hb hrest hmore⟩
    · obtain rfl := Except.ok.inj h
      rw [List.take_zero]
      exact .singleton a

/-- The run that a list begins with is put in order. -/
theorem pairwise_splitRun (hxs : ∀ x ∈ xs, P x) (h : splitRun less xs = .ok (run, rest)) :
    run.Pairwise R := by
  unfold splitRun at h
  split at h
  · next a b others =>
    obtain ⟨ha, hothers⟩ := List.forall_mem_cons.mp hxs
    obtain ⟨hb, hothers⟩ := List.forall_mem_cons.mp hothers
    obtain ⟨descending, hfirst, h⟩ := Result.bind_eq_ok.mp h
    obtain ⟨count, hcount, h⟩ := Result.bind_eq_ok.mp h
    obtain ⟨rfl, rfl⟩ := Prod.mk.inj (Except.ok.inj h)
    -- A descending run is one of the reverse order, and is turned around.
    have hchain : (a :: b :: others.take count).IsChain
        fun x y => if descending then R y x else R x y :=
      List.isChain_cons_cons.mpr
        ⟨hanswer b hb a ha descending hfirst, isChain_run hanswer hb hothers hcount⟩
    rw [← List.isChain_iff_pairwise, List.take_succ_cons, List.take_succ_cons]
    cases descending with
    | true => exact List.isChain_reverse.mpr hchain
    | false => exact hchain
  · next hshort =>
    obtain ⟨rfl, rfl⟩ := Prod.mk.inj (Except.ok.inj h)
    cases xs with
    | nil => exact .nil
    | cons a others =>
      cases others with
      | nil => exact List.pairwise_singleton R a
      | cons b others => exact absurd rfl (hshort a b others)

/-- Binary search keeps what is to stay before the new element below `low`, and the rest from `high`
on; between them it has still to ask. -/
theorem insertionPoint_spec (ha : P a) (hxs : ∀ x ∈ xs, P x) (hsorted : xs.Pairwise R)
    {fuel low high point : Nat} (hlow : ∀ x ∈ xs.take low, R x a) (hhigh : ∀ x ∈ xs.drop high, R a x)
    (hle : low ≤ high) (hlength : high ≤ xs.length) (hfuel : high - low < fuel)
    (h : insertionPoint less a xs.toArray fuel low high = .ok point) :
    (∀ x ∈ xs.take point, R x a) ∧ ∀ x ∈ xs.drop point, R a x := by
  induction fuel generalizing low high with
  | zero => omega
  | succ fuel ih =>
    rw [insertionPoint] at h
    split at h
    · obtain rfl := Except.ok.inj h
      obtain rfl : low = high := by omega
      exact ⟨hlow, hhigh⟩
    · have hmiddle : low + (high - low) / 2 < xs.length := by omega
      generalize hdef : low + (high - low) / 2 = middle at h hmiddle
      have hb : P xs[middle] := hxs _ (List.getElem_mem hmiddle)
      -- The list falls into what is before the middle, the middle, and what is behind it.
      have hsplit : xs = xs.take middle ++ xs[middle] :: xs.drop (middle + 1) := by
        rw [← List.drop_eq_getElem_cons hmiddle, List.take_append_drop]
      have hparts := List.pairwise_append.mp (hsplit ▸ hsorted)
      rw [List.getElem?_toArray, List.getElem?_eq_getElem hmiddle] at h
      obtain ⟨answer, hasked, h⟩ := Result.bind_eq_ok.mp h
      have horder := hanswer a ha _ hb answer hasked
      cases answer with
      | true =>
        -- The middle and all behind it come after the new element.
        refine ih hlow ?_ (by omega) (by omega) (by omega) h
        rw [List.drop_eq_getElem_cons hmiddle]
        have hbehind := (List.pairwise_cons.mp hparts.2.1).1
        exact List.forall_mem_cons.mpr ⟨horder, fun x hx => IsTrans.trans _ _ _ horder (hbehind x hx)⟩
      | false =>
        -- The middle and all before it stay before the new element.
        refine ih ?_ hhigh (by omega) (by omega) (by omega) h
        rw [List.take_succ_eq_append_getElem hmiddle]
        refine List.forall_mem_append.mpr ⟨fun x hx => ?_, List.forall_mem_singleton.mpr horder⟩
        exact IsTrans.trans _ _ _ (hparts.2.2 x hx _ List.mem_cons_self) horder

/-- An item that is inserted keeps the order. -/
theorem pairwise_insert (ha : P a) (hxs : ∀ x ∈ xs, P x) (hsorted : xs.Pairwise R)
    (h : insert less xs a = .ok ys) : ys.Pairwise R := by
  obtain ⟨point, hpoint, h⟩ := Result.bind_eq_ok.mp h
  obtain rfl := Except.ok.inj h
  have hnone : ∀ x ∈ xs.take 0, R x a := List.forall_mem_nil _
  have hbeyond : ∀ x ∈ xs.drop xs.length, R a x := by
    rw [List.drop_length]
    exact List.forall_mem_nil _
  obtain ⟨hbefore, hbehind⟩ := insertionPoint_spec hanswer ha hxs hsorted hnone hbeyond
    (Nat.zero_le _) (Nat.le_refl _) (Nat.lt_succ_self _) hpoint
  rw [← List.take_append_drop point xs, List.pairwise_append] at hsorted
  refine List.pairwise_append.mpr ⟨hsorted.1, List.pairwise_cons.mpr ⟨hbehind, hsorted.2.1⟩, ?_⟩
  exact fun x hx => List.forall_mem_cons.mpr ⟨hbefore x hx, hsorted.2.2 x hx⟩

/-- Items that are inserted one after the other keep the order. -/
theorem pairwise_foldlM (hrun : ∀ x ∈ run, P x) (hrest : ∀ x ∈ rest, P x) (hsorted : run.Pairwise R)
    (h : rest.foldlM (insert less) run = .ok ys) : ys.Pairwise R := by
  induction rest generalizing run with
  | nil =>
    obtain rfl := Except.ok.inj h
    exact hsorted
  | cons a rest ih =>
    obtain ⟨ha, hrest⟩ := List.forall_mem_cons.mp hrest
    obtain ⟨more, hmore, h⟩ := Result.bind_eq_ok.mp h
    have hall : ∀ x ∈ more, P x := fun x hx =>
      List.forall_mem_cons.mpr ⟨ha, hrun⟩ x ((perm_of_insert hmore).mem_iff.mp hx)
    exact ih hall hrest (pairwise_insert hanswer ha hrun hsorted hmore) h

/-- Where the comparison answers by an order, the elements are put in that order. -/
theorem pairwise_sort (hxs : ∀ x ∈ xs, P x) (h : sort less xs = .ok ys) : ys.Pairwise R := by
  obtain ⟨⟨run, rest⟩, hsplit, h⟩ := Result.bind_eq_ok.mp h
  have hall : ∀ x ∈ run ++ rest, P x := fun x hx =>
    hxs x ((perm_of_splitRun hsplit).mem_iff.mp hx)
  obtain ⟨hrun, hrest⟩ := List.forall_mem_append.mp hall
  exact pairwise_foldlM hanswer hrun hrest (pairwise_splitRun hanswer hxs hsplit) h

end

end RecordStore.Sorting
