import Mathlib.Data.List.Nodup
import RecordStore.Store

/-!
# What a lookup finds

The keys of a store are distinct, so that a key finds the one record that has it
(`Store.get?_eq_some`). Looking keys up finds each record as often as its key is among them
(`Store.count_found`).
-/

namespace RecordStore.Store

variable {s : Store}

/-- A key finds the record that has it. -/
theorem get?_eq_some {key : Key} {r : Record} :
    s.get? key = some r ↔ r ∈ s.records ∧ r.key = key := by
  rw [get?]
  constructor
  · intro h
    have hkey := List.find?_some h
    exact ⟨List.mem_of_find?_eq_some h, by simpa using hkey⟩
  · rintro ⟨hr, hkey⟩
    cases hfound : s.records.find? fun r => r.key = key with
    | none => exact absurd (decide_eq_true hkey) (List.find?_eq_none.mp hfound r hr)
    | some other =>
      -- No two records of the store have one key.
      have hother := List.find?_some hfound
      have hsame : other.key = r.key := by
        rw [hkey]
        simpa using hother
      rw [List.inj_on_of_nodup_map s.distinct (List.mem_of_find?_eq_some hfound) hr hsame]

/-- Only the key of the record that is put finds it. -/
theorem find?_putRecord (key : Key) (records : List Record) (r : Record) :
    (putRecord records r).find? (fun old => old.key = key) =
      if r.key = key then some r else records.find? fun old => old.key = key := by
  induction records with
  | nil => by_cases h : r.key = key <;> simp [putRecord, h]
  | cons old rest ih =>
    rw [putRecord]
    split
    · next hsame =>
      simp only [List.find?_cons, hsame]
      by_cases h : r.key = key <;> simp [h]
    · next hother =>
      rw [List.find?_cons, List.find?_cons, ih]
      by_cases h : old.key = key
      · have hne : ¬ r.key = key := fun he => hother (h.trans he.symm)
        simp [h, hne]
      · simp [h]

/-- A record that is written is found under its key, and the others as before. -/
theorem get?_put_singleton (s : Store) (r : Record) (key : Key) :
    (s.put [r]).get? key = if r.key = key then some r else s.get? key :=
  find?_putRecord key s.records r

/-- Keys that are removed find nothing, and the others what they found before. -/
theorem get?_delete (s : Store) (keys : List Key) (key : Key) :
    (s.delete keys).get? key = if key ∈ keys then none else s.get? key := by
  rw [get?, get?, delete, List.find?_filter]
  split
  · next hgone =>
    rw [List.find?_eq_none]
    intro r _
    simp only [decide_eq_true_iff, not_and]
    rintro hkept rfl
    simp [hgone] at hkept
  · next hkept =>
    congr 1
    funext r
    by_cases h : r.key = key <;> simp [h, hkept]

/-- Writing a record brings no other record in. -/
theorem mem_putRecord {records : List Record} {r other : Record} (h : other ∈ putRecord records r) :
    other = r ∨ other ∈ records := by
  induction records with
  | nil => exact .inl (List.mem_singleton.mp h)
  | cons old rest ih =>
    rw [putRecord] at h
    split at h
    · exact (List.mem_cons.mp h).imp_right (List.mem_cons_of_mem old)
    · obtain rfl | h := List.mem_cons.mp h
      · exact .inr List.mem_cons_self
      · exact (ih h).imp_right (List.mem_cons_of_mem old)

/-- Only the record that is written is new. -/
theorem mem_put_singleton {s : Store} {r other : Record} (h : other ∈ (s.put [r]).records) :
    other = r ∨ other ∈ s.records := mem_putRecord h

/-- What holds of the records of a store and of those that are written holds of all of them then. -/
theorem forall_put {Q : Record → Prop} {s : Store} {records : List Record} (hstore : ∀ r ∈ s.records, Q r)
    (hrecords : ∀ r ∈ records, Q r) : ∀ r ∈ (s.put records).records, Q r := by
  have hfold (old : List Record) (hold : ∀ r ∈ old, Q r) : ∀ r ∈ records.foldl putRecord old, Q r := by
    induction records generalizing old with
    | nil => exact hold
    | cons first rest ih =>
      obtain ⟨hfirst, hrest⟩ := List.forall_mem_cons.mp hrecords
      refine ih hrest (putRecord old first) fun r hr => ?_
      obtain rfl | hr := mem_putRecord hr
      · exact hfirst
      · exact hold r hr
  exact hfold s.records hstore

/-- A record with a new key comes last. -/
theorem putRecord_of_not_mem {records : List Record} {r : Record} (h : r.key ∉ records.map Record.key) :
    putRecord records r = records ++ [r] := by
  induction records with
  | nil => rfl
  | cons old rest ih =>
    obtain ⟨hne, hrest⟩ := not_or.mp (mt List.mem_cons.mpr h)
    rw [putRecord, if_neg (Ne.symm hne), ih hrest, List.cons_append]

/-- Records of new keys are written behind the others. -/
theorem foldl_putRecord_of_keysDistinct {old records : List Record}
    (h : Record.KeysDistinct (old ++ records)) : records.foldl putRecord old = old ++ records := by
  induction records generalizing old with
  | nil => exact (List.append_nil old).symm
  | cons r rest ih =>
    have hnew : r.key ∉ old.map Record.key := by
      intro hmem
      rw [Record.KeysDistinct, List.map_append] at h
      exact (List.nodup_append.mp h).2.2 _ hmem _ List.mem_cons_self rfl
    rw [List.append_cons] at h
    rw [List.foldl_cons, putRecord_of_not_mem hnew, ih h, ← List.append_cons]

/-- A record is found as often as its key is looked up. -/
theorem count_found (s : Store) (keys : List Key) (r : Record) :
    (keys.filterMap s.get?).count r = if r ∈ s.records then keys.count r.key else 0 := by
  induction keys with
  | nil => simp
  | cons key rest ih =>
    by_cases hr : r ∈ s.records ∧ r.key = key
    · obtain ⟨hmem, rfl⟩ := hr
      rw [List.filterMap_cons_some (get?_eq_some.mpr ⟨hmem, rfl⟩), List.count_cons_self, ih,
        if_pos hmem, if_pos hmem, List.count_cons_self]
    -- A key that finds another record, or none, adds nothing.
    · have hcount : ((key :: rest).filterMap s.get?).count r = (rest.filterMap s.get?).count r := by
        cases hfound : s.get? key with
        | none => rw [List.filterMap_cons_none hfound]
        | some other =>
          have hne : other ≠ r := by
            rintro rfl
            exact hr (get?_eq_some.mp hfound)
          rw [List.filterMap_cons_some hfound, List.count_cons_of_ne hne]
      rw [hcount, ih]
      split
      · next hmem =>
        have hne : key ≠ r.key := fun heq => hr ⟨hmem, heq.symm⟩
        rw [List.count_cons_of_ne hne]
      · rfl

/-- Looking up the keys of stored records finds the records. -/
theorem found_of_stored {records : List Record} (h : ∀ r ∈ records, r ∈ s.records) :
    (records.map Record.key).filterMap s.get? = records := by
  induction records with
  | nil => rfl
  | cons r rest ih =>
    obtain ⟨hr, hrest⟩ := List.forall_mem_cons.mp h
    rw [List.map_cons, List.filterMap_cons_some (get?_eq_some.mpr ⟨hr, rfl⟩), ih hrest]

end RecordStore.Store
