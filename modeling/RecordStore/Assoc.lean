/-!
# Keyed lists

A list of pairs, read as a finite map that remembers the order in which keys arrived. Writing under
a present key keeps its place; a new key goes to the end.
-/

namespace RecordStore.Assoc

variable {κ α β : Type} [DecidableEq κ]

/-- The value under a key. -/
def get? (key : κ) : List (κ × α) → Option α
  | [] => none
  | (k, a) :: rest => if k = key then some a else get? key rest

/-- Whether something is under a key. -/
def contains (key : κ) (pairs : List (κ × α)) : Bool := (get? key pairs).isSome

/-- Writes a value under a key. -/
def put (key : κ) (value : α) : List (κ × α) → List (κ × α)
  | [] => [(key, value)]
  | (k, a) :: rest => if k = key then (k, value) :: rest else (k, a) :: put key value rest

/-- Removes a key. -/
def erase (key : κ) (pairs : List (κ × α)) : List (κ × α) := pairs.filter fun pair => pair.1 ≠ key

/-- The map that pairs written one after the other leave. -/
def ofList (pairs : List (κ × α)) : List (κ × α) :=
  pairs.foldl (fun done pair => put pair.1 pair.2 done) []

/-- The keys in the order in which they arrived. -/
def keys (pairs : List (κ × α)) : List κ := pairs.map Prod.fst

/-- A key is looked up in the first list, and then in the second one. -/
theorem get?_append (key : κ) (pairs more : List (κ × α)) :
    get? key (pairs ++ more) = (get? key pairs).or (get? key more) := by
  induction pairs with
  | nil => simp [get?]
  | cons pair rest ih =>
    by_cases h : pair.1 = key
    · simp [get?, h]
    · simp [get?, h, ih]

/-- A change of all values changes the value that is found. -/
theorem get?_map (f : α → β) (key : κ) (pairs : List (κ × α)) :
    get? key (pairs.map fun pair => (pair.1, f pair.2)) = (get? key pairs).map f := by
  induction pairs with
  | nil => rfl
  | cons pair rest ih =>
    by_cases h : pair.1 = key
    · simp [get?, h]
    · simp [get?, h, ih]

/-- A value is found exactly for the keys of the pairs. -/
theorem isSome_get?_iff {key : κ} {pairs : List (κ × α)} :
    (get? key pairs).isSome = true ↔ key ∈ keys pairs := by
  induction pairs with
  | nil => simp [get?, keys]
  | cons pair rest ih =>
    simp only [keys] at ih ⊢
    by_cases h : pair.1 = key
    · simp [get?, h]
    · simp [get?, h, ih, Ne.symm h]

/-- Nothing is found exactly for the other keys. -/
theorem get?_eq_none_iff {key : κ} {pairs : List (κ × α)} : get? key pairs = none ↔ key ∉ keys pairs := by
  rw [← isSome_get?_iff, Bool.not_eq_true, Option.isSome_eq_false_iff, Option.isNone_iff_eq_none]

/-- What is found under a key stands under it. -/
theorem mem_of_get?_eq_some {key : κ} {value : α} {pairs : List (κ × α)}
    (h : get? key pairs = some value) : (key, value) ∈ pairs := by
  induction pairs with
  | nil => cases h
  | cons pair rest ih =>
    rw [get?] at h
    split at h
    · next hkey =>
      cases h
      exact hkey ▸ List.mem_cons_self
    · exact List.mem_cons_of_mem _ (ih h)

/-- Under a key that stands once, its own value is found. -/
theorem get?_of_mem {pair : κ × α} {pairs : List (κ × α)} (hkeys : (keys pairs).Nodup)
    (h : pair ∈ pairs) : get? pair.1 pairs = some pair.2 := by
  induction pairs with
  | nil => cases h
  | cons first rest ih =>
    obtain ⟨hfirst, hrest⟩ := List.nodup_cons.mp hkeys
    obtain rfl | hmem := List.mem_cons.mp h
    · simp [get?]
    · have hne : first.1 ≠ pair.1 := fun he => hfirst (he ▸ List.mem_map_of_mem hmem)
      simp [get?, hne, ih hrest hmem]

/-- What was put under a key is found under it. -/
theorem get?_put_self (key : κ) (value : α) (pairs : List (κ × α)) :
    get? key (put key value pairs) = some value := by
  induction pairs with
  | nil => simp [put, get?]
  | cons pair rest ih =>
    by_cases h : pair.1 = key
    · simp [put, get?, h]
    · simp [put, get?, h, ih]

/-- What was put under a key changes nothing under another one. -/
theorem get?_put_of_ne {key other : κ} (h : other ≠ key) (value : α) (pairs : List (κ × α)) :
    get? other (put key value pairs) = get? other pairs := by
  induction pairs with
  | nil => simp [put, get?, h.symm]
  | cons pair rest ih =>
    by_cases hk : pair.1 = key
    · have : ¬ pair.1 = other := fun he => h (he.symm.trans hk)
      simp [put, get?, hk, h.symm]
    · by_cases ho : pair.1 = other
      · simp [put, get?, ho, h]
      · simp [put, get?, hk, ho, ih]

/-- Leaving keys out leaves what stands under the others. -/
theorem get?_filter (keep : κ → Bool) (key : κ) (pairs : List (κ × α)) :
    get? key (pairs.filter fun pair => keep pair.1) =
      if keep key then get? key pairs else none := by
  induction pairs with
  | nil => simp [get?]
  | cons pair rest ih =>
    obtain ⟨first, value⟩ := pair
    -- Whether the first pair stays, and whether its key is the one that is sought.
    cases hkeep : keep first with
    | true =>
      rw [List.filter_cons_of_pos (by exact hkeep), get?, get?, ih]
      by_cases h : first = key
      · subst h
        simp only [hkeep, if_true]
      · rw [if_neg h, if_neg h]
    | false =>
      rw [List.filter_cons_of_neg (by simp [hkeep]), ih, get?]
      by_cases h : first = key
      · subst h
        simp only [hkeep, Bool.false_eq_true, if_false]
      · rw [if_neg h]

/-- A value that is put adds at most its own key. -/
theorem mem_keys_put {key other : κ} {value : α} {pairs : List (κ × α)} :
    other ∈ keys (put key value pairs) ↔ other = key ∨ other ∈ keys pairs := by
  induction pairs with
  | nil => simp [put, keys]
  | cons pair rest ih =>
    simp only [keys] at ih ⊢
    by_cases h : pair.1 = key
    · simp [put, h]
    · simp [put, h, ih, or_left_comm]

/-- What holds of the value that is written and of those that were there holds of all values. -/
theorem forall_mem_put {P : α → Prop} {key : κ} {value : α} {pairs : List (κ × α)}
    (h : ∀ pair ∈ pairs, P pair.2) (hvalue : P value) : ∀ pair ∈ put key value pairs, P pair.2 := by
  induction pairs with
  | nil => simpa [put] using hvalue
  | cons pair rest ih =>
    obtain ⟨hfirst, hrest⟩ := List.forall_mem_cons.mp h
    rw [put]
    split
    · exact List.forall_mem_cons.mpr ⟨hvalue, hrest⟩
    · exact List.forall_mem_cons.mpr ⟨hfirst, ih hrest⟩

/-- Writing keeps the keys distinct. -/
theorem nodup_keys_put {pairs : List (κ × α)} (h : (keys pairs).Nodup) (key : κ) (value : α) :
    (keys (put key value pairs)).Nodup := by
  induction pairs with
  | nil => simp [put, keys]
  | cons pair rest ih =>
    obtain ⟨hfresh, hrest⟩ := List.nodup_cons.mp h
    rw [put]
    split
    · next hsame => exact List.nodup_cons.mpr ⟨hsame ▸ hfresh, hrest⟩
    · next hother =>
      refine List.nodup_cons.mpr ⟨fun hmem => ?_, ih hrest⟩
      exact (mem_keys_put.mp hmem).elim hother hfresh

/-- A new key comes last. -/
theorem put_of_not_mem {key : κ} {pairs : List (κ × α)} (h : key ∉ keys pairs) (value : α) :
    put key value pairs = pairs ++ [(key, value)] := by
  induction pairs with
  | nil => rfl
  | cons pair rest ih =>
    obtain ⟨hne, hrest⟩ := not_or.mp (mt List.mem_cons.mpr h)
    rw [put, if_neg (Ne.symm hne), ih hrest, List.cons_append]

/-- Pairs with distinct keys are the map that they leave. -/
theorem ofList_of_nodup {pairs : List (κ × α)} (h : (keys pairs).Nodup) : ofList pairs = pairs := by
  have hfold (rest done : List (κ × α)) (h : (keys (done ++ rest)).Nodup) :
      rest.foldl (fun done pair => put pair.1 pair.2 done) done = done ++ rest := by
    induction rest generalizing done with
    | nil => exact (List.append_nil done).symm
    | cons pair rest ih =>
      have hfresh : pair.1 ∉ keys done := by
        rw [keys, List.map_append] at h
        intro hmem
        exact (List.nodup_append.mp h).2.2 _ hmem _ List.mem_cons_self rfl
      rw [List.foldl_cons, put_of_not_mem hfresh, ih _ (by simpa using h), List.append_assoc,
        List.singleton_append]
  exact hfold pairs [] h

end RecordStore.Assoc
