import RecordStore.Proofs.Datum.Alike
import RecordStore.Proofs.Json.Canonical

/-!
# One canonical text for each plain datum

The canonical form of plain data is in order (`Datum.IsPlain.ordered_of_toCanonical`), and in order
only equal JSON values are alike (`Datum.eq_of_alike_of_ordered`). So two plain data have the same
canonical text exactly if they are alike (`Datum.KeptBy.write_eq_iff`): it tells all but the order of
entries, and nothing of that. A model instance of plain fields has the canonical form of the
dictionary of its fields (`Datum.IsPlain.toCanonical_model`), although it gets there by another way.
-/

namespace RecordStore.Datum

/-! ## JSON values in order -/

theorem ofJson_object (members : List (String × Json)) :
    ofJson (.object members) = .ofFields (members.map fun member => (member.1, ofJson member.2)) := by
  rw [ofJson, ofMembers_eq_map, ofFields, List.map_map]
  rfl

theorem ofJson_array (items : List Json) : ofJson (.array items) = .list (items.map ofJson) := by
  rw [ofJson, ofItems_eq_map]

/-- In order, JSON values that differ in the order of members alone do not differ at all. -/
theorem eq_of_alike_of_ordered {j k : Json} (hreadable : j.Readable) (hj : j.Ordered) (hk : k.Ordered)
    (h : Alike (ofJson j) (ofJson k)) : j = k := by
  induction hreadable generalizing k with
  | @array items _ ih =>
    rw [ofJson_array] at h
    obtain ⟨others, hothers, hitems⟩ := alike_list_iff.mp h
    obtain ⟨values, rfl, rfl⟩ : ∃ values, k = .array values ∧ others = values.map ofJson := by
      cases k <;> cases hothers
      exact ⟨_, rfl, ofItems_eq_map _⟩
    cases hj with
    | array hitems_ordered =>
    cases hk with
    | array hvalues_ordered =>
    rw [List.forall₂_map_left_iff, List.forall₂_map_right_iff] at hitems
    refine congrArg _ (eq_of_forall₂ hitems fun item hitem value hvalue halike => ?_)
    exact ih item hitem (hitems_ordered item hitem) (hvalues_ordered value hvalue) halike
  | @object members distinct _ ih =>
    obtain ⟨found, rfl⟩ : ∃ found, k = .object found := by
      rw [ofJson_object] at h
      obtain ⟨_, _, _, hothers, _⟩ := alike_ofFields_iff.mp h
      cases k <;> try cases hothers
      exact ⟨_, rfl⟩
    cases hj with
    | object hascending hmembers_ordered =>
    cases hk with
    | object hascending' hfound_ordered =>
    have hnames (members : List (String × Json)) :
        (members.map fun member => (member.1, ofJson member.2)).map Prod.fst =
          members.map Prod.fst := by
      rw [List.map_map]
      rfl
    rw [ofJson_object, ofJson_object] at h
    -- The names of both are in order, so that nothing has moved.
    have hperm := perm_names_of_alike h
    rw [hnames, hnames] at hperm
    rw [alike_ofFields_iff_forall₂ (by rw [hnames, hnames, hascending.eq_of_perm hascending' hperm])
      (by rwa [hnames]), List.forall₂_map_left_iff, List.forall₂_map_right_iff] at h
    refine congrArg _ (eq_of_forall₂ h fun member hmember other hother hsame => ?_)
    exact Prod.ext hsame.1.symm (ih member hmember (hmembers_ordered member hmember)
      (hfound_ordered other hother) hsame.2)
  | _ => cases k <;> cases h; rfl

/-! ## Canonical forms -/

variable {d u v : Datum} {fields : List (String × Datum)}

/-- The name by which an entry is sorted. -/
def entryName (entry : Datum × Except Error Json) : String :=
  match entry.1 with
  | .text name => name
  | _ => ""

instance : IsTrans (Datum × Except Error Json) fun a b => textAtMost (entryName a) (entryName b) :=
  ⟨fun _ _ _ => textAtMost_trans _ _ _⟩

/-- The order of names is that of their characters. -/
theorem textAtMost_of_lessList {a b : String} :
    if lessList a.toList b.toList then textAtMost a b else textAtMost b a := by
  have hswap : List.compareLex compare b.toList a.toList =
      (List.compareLex compare a.toList b.toList).swap := Std.OrientedCmp.eq_swap
  rw [lessList, textAtMost, textAtMost, hswap]
  cases List.compareLex compare a.toList b.toList <;> rfl

/-- Sorting puts the names of fields in order. -/
theorem ascending_of_sortEntries {sorted : List (String × Datum)}
    (h : sortEntries (fields.map canonicalField) = .ok (sorted.map canonicalField)) :
    Ascending (sorted.map Prod.fst) := by
  have hanswer : ∀ a : Datum × Except Error Json, (∃ name, a.1 = .text name) →
      ∀ b : Datum × Except Error Json, (∃ name, b.1 = .text name) → ∀ answer,
        less a.1 b.1 = .ok answer →
          if answer then textAtMost (entryName a) (entryName b)
          else textAtMost (entryName b) (entryName a) := by
    rintro ⟨_, _⟩ ⟨name, rfl⟩ ⟨_, _⟩ ⟨other, rfl⟩ answer h
    obtain rfl := Except.ok.inj h
    exact textAtMost_of_lessList
  have hnamed : ∀ entry ∈ fields.map canonicalField, ∃ name, entry.1 = .text name :=
    List.forall_mem_map.mpr fun field _ => ⟨field.1, rfl⟩
  have hsorted := Sorting.pairwise_sort hanswer hnamed h
  rw [List.pairwise_map] at hsorted
  rw [Ascending, List.pairwise_map]
  exact hsorted

/-- The members that are collected are those of the fields, in their order. -/
theorem forall₂_of_collectMembers {members : List (String × Json)}
    (h : collectMembers (fields.map canonicalField) = .ok members) :
    List.Forall₂ (fun field member => member.1 = field.1 ∧ field.2.toCanonical = .ok member.2)
      fields members := by
  induction fields generalizing members with
  | nil =>
    obtain rfl := Except.ok.inj h
    exact .nil
  | cons field fields ih =>
    obtain ⟨name, hname, h⟩ := Result.bind_eq_ok.mp h
    obtain ⟨value, hvalue, h⟩ := Result.bind_eq_ok.mp h
    obtain ⟨rest, hrest, h⟩ := Result.bind_eq_ok.mp h
    obtain rfl := Except.ok.inj h
    exact .cons ⟨(Except.ok.inj hname).symm, hvalue⟩ (ih hrest)

/-- The canonical form of plain data is in order. -/
theorem IsPlain.ordered_of_toCanonical (hd : IsPlain d) {j : Json} (h : d.toCanonical = .ok j) :
    j.Ordered := by
  induction hd generalizing j with
  | integer short =>
    obtain rfl := Except.ok.inj ((writable_eq_ok (.integer short)).symm.trans h)
    constructor
  | list _ ih =>
    rw [toCanonical] at h
    obtain ⟨values, hvalues, h⟩ := Result.bind_eq_ok.mp h
    obtain rfl := Except.ok.inj h
    rw [canonicalItems_eq_map, Result.mapM_eq_ok, List.forall₂_map_left_iff] at hvalues
    exact .array (forall_mem_of_forall₂ hvalues fun item hitem _ hvalue => ih item hitem hvalue)
  | @dict fields _ _ ih =>
    obtain ⟨sorted, hperm, hsort⟩ := exists_sortEntries fields
    rw [ofFields, toCanonical, canonicalEntries_fields, hsort] at h
    obtain ⟨_, ⟨⟩, h⟩ := Result.bind_eq_ok.mp h
    obtain ⟨members, hmembers, h⟩ := Result.bind_eq_ok.mp h
    obtain rfl := Except.ok.inj h
    -- Sorting has put the fields in order, and each value is canonical in its turn.
    have hfields := forall₂_of_collectMembers hmembers
    refine .object ?_ (forall_mem_of_forall₂ hfields fun field hfield _ hmember =>
      ih field (hperm.mem_iff.mp hfield) hmember.2)
    rw [← map_eq_map_of_forall₂ hfields fun _ _ hmember => hmember.1.symm]
    exact ascending_of_sortEntries hsort
  | _ =>
    obtain rfl := Except.ok.inj h
    constructor

/-- Plain data have the same canonical form exactly if they are alike. -/
theorem KeptBy.eq_iff {j k : Json} (hu : IsPlain u) (hv : IsPlain v) (hj : KeptBy u j)
    (hk : KeptBy v k) : j = k ↔ Alike u v := by
  constructor
  · -- Both are alike to the one form.
    rintro rfl
    exact hu.alike_trans hj.alike (hv.alike_symm hk.alike)
  · -- Their forms are alike, and both in order.
    intro h
    refine eq_of_alike_of_ordered hj.readable (hu.ordered_of_toCanonical hj.toCanonical_eq)
      (hv.ordered_of_toCanonical hk.toCanonical_eq) ?_
    exact (hu.of_alike hj.alike).alike_trans (hu.alike_symm hj.alike) (hu.alike_trans h hk.alike)

/-- Plain data have the same canonical text exactly if they are equal but for the order of entries.
-/
theorem KeptBy.write_eq_iff {j k : Json} (hu : IsPlain u) (hv : IsPlain v) (hj : KeptBy u j)
    (hk : KeptBy v k) : Json.write Json.plain j = Json.write Json.plain k ↔ Alike u v := by
  rw [← KeptBy.eq_iff hu hv hj hk]
  exact ⟨Json.eq_of_write_eq hj.readable hk.readable, congrArg _⟩

/-! ## Model instances -/

/-- Where names stand once, merging members changes nothing. -/
theorem merged_of_readable {j : Json} (h : j.Readable) : j.merged = j := by
  -- The functions on lists are mutual with the one on values, and keep what their parts keep.
  have hitems (items : List Json) (h : ∀ item ∈ items, item.merged = item) :
      Json.mergedItems items = items := by
    induction items with
    | nil => rfl
    | cons item items ih =>
      obtain ⟨hitem, hitems⟩ := List.forall_mem_cons.mp h
      rw [Json.mergedItems, hitem, ih hitems]
  have hmembers (members : List (String × Json)) (h : ∀ member ∈ members, member.2.merged = member.2) :
      Json.mergedMembers members = members := by
    induction members with
    | nil => rfl
    | cons member members ih =>
      obtain ⟨hmember, hmembers⟩ := List.forall_mem_cons.mp h
      rw [Json.mergedMembers, hmember, ih hmembers]
  induction h with
  | array _ ih => rw [Json.merged, hitems _ ih]
  | object distinct _ ih => rw [Json.merged, hmembers _ ih, Assoc.ofList_of_nodup distinct]
  | _ => rfl

/-- A value with its members in order differs from the value in nothing else. -/
theorem alike_sorted (j : Json) : Alike (ofJson j) (ofJson j.sorted) := by
  induction j using Json.induct with
  | array items ih =>
    rw [Json.sorted, Json.sortedItems_eq_map, ofJson_array, ofJson_array, List.map_map]
    refine .list (List.forall₂_map_left_iff.mpr (List.forall₂_map_right_iff.mpr ?_))
    exact List.forall₂_same.mpr ih
  | object members ih =>
    -- The sorted members are the members in another order, with what is in them sorted.
    obtain ⟨moved, hperm, hsorted⟩ := exists_map_eq_of_perm (Json.perm_sortMembers _)
    rw [Json.sorted, Json.sortedMembers_eq_map, hsorted, ofJson_object, ofJson_object]
    refine alike_ofFields_iff.mpr ⟨_, _, hperm.map _, rfl, ?_⟩
    rw [List.map_map, List.forall₂_map_left_iff, List.forall₂_map_right_iff, List.forall₂_same]
    exact fun member hmember => ⟨rfl, ih member (hperm.mem_iff.mp hmember)⟩
  | _ => exact .refl _

theorem dumpItems_eq_ok {items : List Datum} {values : List Json}
    (h : List.Forall₂ (fun d j => d.dump = .ok j) items values) : dumpItems items = .ok values := by
  induction h with
  | nil => rfl
  | cons hfirst _ ih =>
    rw [dumpItems, hfirst, ih]
    rfl

theorem dumpEntries_eq_ok {members : List (String × Json)}
    (h : List.Forall₂ (fun field member => member.1 = field.1 ∧ field.2.dump = .ok member.2)
      fields members) :
    dumpEntries (fields.map fun field => (.text field.1, field.2)) = .ok members := by
  induction h with
  | nil => rfl
  | cons hfirst _ ih =>
    rw [List.map_cons, dumpEntries, hfirst.2, ih, ← hfirst.1]
    rfl

/-- Plain data are dumped as they are. -/
theorem IsPlain.exists_dump (h : IsPlain d) :
    ∃ j : Json, j.Readable ∧ ofJson j = d ∧ d.dump = .ok j := by
  induction h with
  | null => exact ⟨.null, .null, rfl, rfl⟩
  | boolean b => exact ⟨.boolean b, .boolean b, rfl, rfl⟩
  | integer short => exact ⟨.integer _, .integer short, rfl, rfl⟩
  | text s => exact ⟨.string s, .string s, rfl, rfl⟩
  | @list items _ ih =>
    obtain ⟨values, hvalues⟩ := exists_forall₂ ih
    refine ⟨.array values, .array (forall_mem_of_forall₂ hvalues fun _ _ _ h => h.1), ?_, ?_⟩
    · have hitems := map_eq_map_of_forall₂ hvalues (f := id) (g := ofJson) fun _ _ h => h.2.1.symm
      rw [ofJson_array, ← hitems, List.map_id]
    · rw [dump, dumpItems_eq_ok (hvalues.imp fun _ _ h => h.2.2)]
      rfl
  | @dict fields distinct _ ih =>
    obtain ⟨members, hmembers⟩ : ∃ members : List (String × Json), List.Forall₂
        (fun field member => member.1 = field.1 ∧ member.2.Readable ∧ ofJson member.2 = field.2 ∧
          field.2.dump = .ok member.2) fields members := by
      refine exists_forall₂ fun field hfield => ?_
      obtain ⟨j, hj⟩ := ih field hfield
      exact ⟨(field.1, j), rfl, hj⟩
    -- The members have the names of the fields, so none stands twice.
    have hnames := map_eq_map_of_forall₂ hmembers (f := Prod.fst) (g := Prod.fst)
      fun _ _ h => h.1.symm
    refine ⟨.object members, .object (hnames ▸ distinct)
      (forall_mem_of_forall₂ hmembers fun _ _ _ h => h.2.1), ?_, ?_⟩
    · have hfields := map_eq_map_of_forall₂ hmembers (f := id)
        (g := fun member : String × Json => (member.1, ofJson member.2))
        fun _ _ h => Prod.ext h.1.symm h.2.2.1.symm
      rw [ofJson_object, ← hfields, List.map_id]
    · rw [ofFields, dump, dumpEntries_eq_ok (hmembers.imp fun _ _ h => ⟨h.1, h.2.2.2⟩)]
      rfl

/-- Among plain fields there are no doubles, which instances alone treat by what they are declared as. -/
theorem dumpFields_eq (hplain : ∀ field ∈ fields, IsPlain field.2) (doubles : List String) :
    dumpFields doubles fields = dumpEntries (fields.map fun field => (.text field.1, field.2)) := by
  induction fields with
  | nil => rfl
  | cons field fields ih =>
    obtain ⟨hfield, hfields⟩ := List.forall_mem_cons.mp hplain
    rw [dumpFields, List.map_cons, dumpEntries, ih hfields]
    · rfl
    · rintro x hx
      rw [hx] at hfield
      cases hfield

/-- A dictionary is plain if it has no name twice and its values are plain. -/
theorem isPlain_ofFields_iff :
    IsPlain (.ofFields fields) ↔
      (fields.map Prod.fst).Nodup ∧ ∀ field ∈ fields, IsPlain field.2 := by
  refine ⟨fun h => ?_, fun h => .dict h.1 h.2⟩
  generalize hd : ofFields fields = d at h
  cases h with
  | dict distinct plain =>
    obtain rfl := ofFields_inj.mp hd
    exact ⟨distinct, plain⟩
  | _ => cases hd

/-- An instance of plain fields has the canonical form of the dictionary of its fields. -/
theorem IsPlain.toCanonical_model (h : IsPlain (.ofFields fields)) (shape : Shape)
    (given : List String) : (model shape fields given).toCanonical = toCanonical (.ofFields fields) := by
  obtain ⟨j, hj⟩ := h.exists_keptBy
  obtain ⟨k, hreadable, hk, hdump⟩ := h.exists_dump
  have hplain := (isPlain_ofFields_iff.mp h).2
  have hmodel : (model shape fields given).dump = .ok k := by
    rw [dump, dumpFields_eq hplain, ← hdump, ofFields, dump]
  -- The dictionary sorts its entries while it is written, the instance what was dumped of it.
  have hsame : j = k.sorted := by
    refine eq_of_alike_of_ordered hj.readable (h.ordered_of_toCanonical hj.toCanonical_eq)
      (Json.ordered_sorted k) ?_
    exact h.alike_of_alike hj.alike (hk ▸ alike_sorted k)
  have hwritten : (model shape fields given).toCanonical = writable k.merged.sorted := by
    rw [toCanonical, hmodel]
    rfl
  rw [hwritten, merged_of_readable hreadable, ← hsame, hj.toCanonical_eq]
  exact writable_eq_ok hj.readable

end RecordStore.Datum
