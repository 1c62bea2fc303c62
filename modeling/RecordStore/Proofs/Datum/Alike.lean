import RecordStore.Proofs.Datum.Plain

/-!
# Data that differ in the order of entries

On plain data, being equal but for the order of the entries of dictionaries (`Datum.Alike`) is an
equivalence: each datum is alike to itself, and two data that are alike to the same one are alike
(`Datum.IsPlain.alike_of_alike`). What is alike to plain data is plain.
-/

namespace RecordStore.Datum

/-- Two fields of one name with alike values. -/
def FieldAlike (field other : String × Datum) : Prop := other.1 = field.1 ∧ Alike field.2 other.2

variable {fields others : List (String × Datum)} {d : Datum}

/-- Fields that are alike have the same names. -/
theorem FieldAlike.map_fst_eq (h : List.Forall₂ FieldAlike fields others) :
    others.map Prod.fst = fields.map Prod.fst :=
  (map_eq_map_of_forall₂ h fun _ _ hsame => hsame.1.symm).symm

/-- Data are like a list if they are a list of alike items. -/
theorem alike_list_iff {items : List Datum} :
    Alike (.list items) d ↔ ∃ others, d = .list others ∧ List.Forall₂ Alike items others := by
  refine ⟨isUniform_alike.list, ?_⟩
  rintro ⟨others, rfl, h⟩
  exact .list h

/-- Entries under text keys are those of fields. -/
theorem exists_fields_eq {entries : List (Datum × Datum)}
    (h : List.Forall₂ (EntryOf Alike) fields entries) :
    ∃ others : List (String × Datum),
      entries = others.map (fun field => (.text field.1, field.2)) ∧
        List.Forall₂ FieldAlike fields others := by
  induction h with
  | nil => exact ⟨[], rfl, .nil⟩
  | @cons field entry _ _ hfirst _ ih =>
    obtain ⟨key, value⟩ := entry
    obtain ⟨rfl, hvalue⟩ := hfirst
    obtain ⟨others, rfl, hothers⟩ := ih
    exact ⟨(field.1, value) :: others, rfl, .cons ⟨rfl, hvalue⟩ hothers⟩

/-- Data are like a dictionary if they have its entries in another order, up to what is alike. -/
theorem alike_ofFields_iff :
    Alike (.ofFields fields) d ↔ ∃ sorted others, sorted.Perm fields ∧ d = .ofFields others ∧
      List.Forall₂ FieldAlike sorted others := by
  constructor
  · intro h
    obtain ⟨sorted, entries, hperm, rfl, hentries⟩ := isUniform_alike.dict h
    obtain ⟨others, rfl, hothers⟩ := exists_fields_eq hentries
    exact ⟨sorted, others, hperm, rfl, hothers⟩
  · rintro ⟨sorted, others, hperm, rfl, h⟩
    refine .dict (hperm.symm.map _) ?_ ?_
    · have hkeys := congrArg (List.map Datum.text) (FieldAlike.map_fst_eq h).symm
      simpa only [List.map_map, Function.comp_def] using hkeys
    · simp only [List.map_map, Function.comp_def]
      rw [List.forall₂_map_left_iff, List.forall₂_map_right_iff]
      exact h.imp fun _ _ hsame => hsame.2

theorem ofFields_inj {xs ys : List (String × Datum)} : ofFields xs = ofFields ys ↔ xs = ys := by
  refine ⟨fun h => ?_, congrArg _⟩
  have hinjective : Function.Injective fun field : String × Datum => (Datum.text field.1, field.2) := by
    rintro ⟨name, d⟩ ⟨other, e⟩ h
    cases h
    rfl
  exact List.map_injective_iff.mpr hinjective (Datum.dict.inj h)

/-- Fields that were moved, but whose names were not, are where they were. -/
theorem eq_of_perm_of_map_fst_eq (h : fields.Perm others)
    (hnames : fields.map Prod.fst = others.map Prod.fst) (hdistinct : (others.map Prod.fst).Nodup) :
    fields = others := by
  induction fields generalizing others with
  | nil => exact (List.nil_perm.mp h).symm
  | cons field fields ih =>
    cases others with
    | nil => cases hnames
    | cons other others =>
      obtain ⟨hfirst, hrest⟩ := List.cons.inj hnames
      obtain rfl : field = other := List.inj_on_of_nodup_map hdistinct
        (h.mem_iff.mp List.mem_cons_self) List.mem_cons_self hfirst
      rw [ih (List.Perm.cons_inv h) hrest (List.nodup_cons.mp hdistinct).2]

/-- Dictionaries that are alike have the same names. -/
theorem perm_names_of_alike (h : Alike (.ofFields fields) (.ofFields others)) :
    (fields.map Prod.fst).Perm (others.map Prod.fst) := by
  obtain ⟨sorted, found, hperm, hfound, hsame⟩ := alike_ofFields_iff.mp h
  obtain rfl := ofFields_inj.mp hfound
  rw [FieldAlike.map_fst_eq hsame]
  exact (hperm.map Prod.fst).symm

/-- Fields with the same names in the same order are alike one by one. -/
theorem alike_ofFields_iff_forall₂ (hnames : fields.map Prod.fst = others.map Prod.fst)
    (hdistinct : (fields.map Prod.fst).Nodup) :
    Alike (.ofFields fields) (.ofFields others) ↔ List.Forall₂ FieldAlike fields others := by
  refine ⟨fun h => ?_, fun h => alike_ofFields_iff.mpr ⟨_, _, .refl _, rfl, h⟩⟩
  obtain ⟨sorted, found, hperm, hfound, hsame⟩ := alike_ofFields_iff.mp h
  obtain rfl := ofFields_inj.mp hfound
  obtain rfl := eq_of_perm_of_map_fst_eq hperm
    ((FieldAlike.map_fst_eq hsame).symm.trans hnames.symm) hdistinct
  exact hsame

/-- What two data have in common with a plain one, they have in common with each other. -/
theorem IsPlain.alike_of_alike {u v w : Datum} (hu : IsPlain u) (hv : Alike u v) (hw : Alike u w) :
    Alike v w := by
  induction hu generalizing v w with
  | list _ ih =>
    obtain ⟨vs, rfl, hvs⟩ := alike_list_iff.mp hv
    obtain ⟨ws, rfl, hws⟩ := alike_list_iff.mp hw
    exact .list (forall₂_of_both hvs hws fun item hitem _ _ => ih item hitem)
  | dict _ _ ih =>
    obtain ⟨sorted, vs, hsorted, rfl, hvs⟩ := alike_ofFields_iff.mp hv
    obtain ⟨moved, ws, hmoved, rfl, hws⟩ := alike_ofFields_iff.mp hw
    -- The fields of the first one follow those of the second one into their order.
    obtain ⟨turned, hturned, hperm⟩ := List.perm_comp_forall₂ (hmoved.trans hsorted.symm) hvs
    refine alike_ofFields_iff.mpr ⟨turned, ws, hperm, rfl, ?_⟩
    refine forall₂_of_both hturned hws fun field hfield _ _ hv hw => ?_
    exact ⟨hw.1.trans hv.1.symm, ih field (hmoved.mem_iff.mp hfield) hv.2 hw.2⟩
  | _ =>
    -- Nothing but itself is alike to data that hold no other data.
    cases hv
    exact hw

theorem IsPlain.alike_symm {u v : Datum} (hu : IsPlain u) (h : Alike u v) : Alike v u :=
  hu.alike_of_alike h (.refl u)

/-- What is alike to plain data is plain. -/
theorem IsPlain.of_alike {u v : Datum} (hu : IsPlain u) (h : Alike u v) : IsPlain v := by
  induction hu generalizing v with
  | null =>
    cases h
    exact .null
  | boolean b =>
    cases h
    exact .boolean b
  | integer short =>
    cases h
    exact .integer short
  | text s =>
    cases h
    exact .text s
  | list _ ih =>
    obtain ⟨others, rfl, hothers⟩ := alike_list_iff.mp h
    exact .list (forall_mem_of_forall₂ hothers fun item hitem _ => ih item hitem)
  | dict distinct _ ih =>
    obtain ⟨sorted, others, hsorted, rfl, hothers⟩ := alike_ofFields_iff.mp h
    refine .dict ?_ (forall_mem_of_forall₂ hothers fun field hfield _ hsame => ?_)
    -- Another order of the names has no name twice either.
    · rw [FieldAlike.map_fst_eq hothers]
      exact (hsorted.map Prod.fst).nodup_iff.mpr distinct
    · exact ih field (hsorted.mem_iff.mp hfield) hsame.2

theorem IsPlain.alike_trans {u v w : Datum} (hu : IsPlain u) (hv : Alike u v) (hw : Alike v w) :
    Alike u w :=
  (hu.of_alike hv).alike_of_alike (hu.alike_symm hv) hw

end RecordStore.Datum
