import Mathlib.Data.List.Perm.Basic
import RecordStore.CanonicalJson
import RecordStore.Proofs.Json.Readable
import RecordStore.Proofs.Sorting

/-!
# Canonical JSON of plain data

Plain data are what JSON can hold without loss (`Datum.IsPlain`). Their canonical form sorts the
entries of dictionaries, and loses nothing else: it is the data again, but for the order of entries
(`Datum.IsPlain.exists_keptBy`).
-/

namespace RecordStore.Datum

/-- Null, booleans, whole numbers that are not too long, texts, and lists and dictionaries of such
data; the keys of a dictionary are texts. -/
inductive IsPlain : Datum → Prop
  | null : IsPlain .null
  | boolean (b : Bool) : IsPlain (.boolean b)
  | integer {n : Int} (short : n.natAbs < 10 ^ Number.maxDigits) : IsPlain (.integer n)
  | text (s : String) : IsPlain (.text s)
  | list {items : List Datum} (plain : ∀ d ∈ items, IsPlain d) : IsPlain (.list items)
  | dict {fields : List (String × Datum)} (distinct : (fields.map Prod.fst).Nodup)
      (plain : ∀ field ∈ fields, IsPlain field.2) : IsPlain (.ofFields fields)

/-- Two data are equal but for the order of the entries of dictionaries. -/
inductive Alike : Datum → Datum → Prop
  | refl (d : Datum) : Alike d d
  | list {xs ys : List Datum} (items : List.Forall₂ Alike xs ys) : Alike (.list xs) (.list ys)
  | dict {xs zs ys : List (Datum × Datum)} (moved : xs.Perm zs)
      (keys : zs.map Prod.fst = ys.map Prod.fst)
      (values : List.Forall₂ Alike (zs.map Prod.snd) (ys.map Prod.snd)) : Alike (.dict xs) (.dict ys)

/-! ## JSON data -/

theorem ofItems_eq_map (items : List Json) : ofItems items = items.map ofJson := by
  induction items with
  | nil => rfl
  | cons item rest ih => rw [ofItems, List.map_cons, ih]

theorem ofMembers_eq_map (members : List (String × Json)) :
    ofMembers members = members.map fun member => (.text member.1, ofJson member.2) := by
  induction members with
  | nil => rfl
  | cons member rest ih => rw [ofMembers, List.map_cons, ih]

/-- What is found under a key is the value of an entry. -/
theorem exists_mem_of_lookup {key : String} {entries : List (Datum × Datum)} {d : Datum}
    (h : lookup key entries = some d) : ∃ entry ∈ entries, entry.2 = d := by
  fun_induction lookup key entries with
  | case1 => cases h
  | case2 => exact ⟨_, List.mem_cons_self, Option.some.inj h⟩
  | case3 _ _ _ _ ih | case4 _ _ _ ih =>
    obtain ⟨entry, hentry, hd⟩ := ih h
    exact ⟨entry, List.mem_cons_of_mem _ hentry, hd⟩

/-- What is found among members is JSON. -/
theorem lookup_ofMembers {name : String} {members : List (String × Json)} {d : Datum}
    (h : lookup name (ofMembers members) = some d) : ∃ j, d = ofJson j := by
  induction members with
  | nil => cases h
  | cons member rest ih =>
    rw [ofMembers, lookup] at h
    split at h
    · exact ⟨member.2, (Option.some.inj h).symm⟩
    · exact ih h

/-- Only objects give dictionaries. -/
theorem ofJson_eq_dict {j : Json} {entries : List (Datum × Datum)} (h : ofJson j = .dict entries) :
    ∃ members, j = .object members ∧ entries = ofMembers members := by
  cases j <;> cases h
  exact ⟨_, rfl, rfl⟩

/-- The items of a list from JSON are JSON. -/
theorem ofJson_eq_list {j : Json} {items : List Datum} (h : ofJson j = .list items) :
    ∀ d ∈ items, ∃ j, d = ofJson j := by
  cases j <;> cases h
  intro d hd
  rw [ofItems_eq_map] at hd
  obtain ⟨j, -, rfl⟩ := List.mem_map.mp hd
  exact ⟨j, rfl⟩

theorem areWritable_iff {items : List Datum} :
    areWritable items = true ↔ ∀ d ∈ items, d.isWritable = true := by
  induction items with
  | nil => exact iff_of_true rfl (List.forall_mem_nil _)
  | cons item items ih => rw [areWritable, Bool.and_eq_true, ih, List.forall_mem_cons]

theorem areWritableEntries_iff {entries : List (Datum × Datum)} :
    areWritableEntries entries = true ↔
      ∀ entry ∈ entries, entry.1.isWritable = true ∧ entry.2.isWritable = true := by
  induction entries with
  | nil => exact iff_of_true rfl (List.forall_mem_nil _)
  | cons entry entries ih =>
    rw [areWritableEntries, Bool.and_eq_true, Bool.and_eq_true, ih, List.forall_mem_cons]

/-- What a reader can find can be written. -/
theorem isWritable_ofJson {j : Json} (h : j.Readable) : (ofJson j).isWritable = true := by
  induction h with
  | integer short => exact Number.isShort_iff.mpr short
  | array _ ih =>
    rw [ofJson, isWritable, areWritable_iff, ofItems_eq_map]
    exact List.forall_mem_map.mpr ih
  | object _ _ ih =>
    rw [ofJson, isWritable, areWritableEntries_iff, ofMembers_eq_map]
    exact List.forall_mem_map.mpr fun member hmember => ⟨rfl, ih member hmember⟩
  | _ => rfl

/-- What a reader can find is written. -/
theorem writable_eq_ok {j : Json} (h : j.Readable) : writable j = .ok j :=
  if_pos (isWritable_ofJson h)

/-! ## Depth -/

mutual

/-- The number of lists and dictionaries that lie inside each other. -/
def depth : Datum → Nat
  | .list items => itemsDepth items + 1
  | .dict entries => entriesDepth entries + 1
  | _ => 0

/-- The depth of the deepest item. -/
def itemsDepth : List Datum → Nat
  | [] => 0
  | item :: items => max (depth item) (itemsDepth items)

/-- The depth of the deepest value of an entry. -/
def entriesDepth : List (Datum × Datum) → Nat
  | [] => 0
  | (_, item) :: entries => max (depth item) (entriesDepth entries)

end

theorem itemsDepth_eq_of_forall₂ {items : List Datum} {values : List Json}
    (h : List.Forall₂ (fun d j => j.depth = d.depth) items values) :
    Json.itemsDepth values = itemsDepth items := by
  induction h with
  | nil => rfl
  | cons hfirst _ ih => rw [Json.itemsDepth, itemsDepth, hfirst, ih]

theorem entriesDepth_eq_of_forall₂ {fields : List (String × Datum)} {members : List (String × Json)}
    (h : List.Forall₂ (fun field member => member.2.depth = field.2.depth) fields members) :
    Json.membersDepth members =
      entriesDepth (fields.map fun field => (.text field.1, field.2)) := by
  induction h with
  | nil => rfl
  | cons hfirst _ ih => rw [Json.membersDepth, List.map_cons, entriesDepth, hfirst, ih]

/-- The order of entries does not matter for the depth. -/
theorem entriesDepth_eq_of_perm {xs ys : List (Datum × Datum)} (h : xs.Perm ys) :
    entriesDepth xs = entriesDepth ys := by
  induction h with
  | nil => rfl
  | cons entry _ ih => rw [entriesDepth, entriesDepth, ih]
  | swap first second rest => simp only [entriesDepth, Nat.max_left_comm]
  | trans _ _ ih ih' => exact ih.trans ih'

/-- The empty list inside so many others, each of which has nothing else in it. -/
def enclosed : Nat → Datum
  | 0 => .list []
  | n + 1 => .list [enclosed n]

theorem isPlain_enclosed (n : Nat) : (enclosed n).IsPlain := by
  induction n with
  | zero => exact .list (List.forall_mem_nil _)
  | succ n ih => exact .list (List.forall_mem_singleton.mpr ih)

theorem depth_enclosed (n : Nat) : (enclosed n).depth = n + 1 := by
  induction n with
  | zero => rfl
  | succ n ih => rw [enclosed, depth, itemsDepth, itemsDepth, ih, Nat.max_zero]

/-! ## Dictionaries -/

theorem canonicalItems_eq_map (items : List Datum) :
    canonicalItems items = items.map fun d => (d.show, d.toCanonical) := by
  induction items with
  | nil => rfl
  | cons d items ih => rw [canonicalItems, ih, List.map_cons]

/-- An entry of a dictionary with the form of its value. -/
def canonicalField (field : String × Datum) : Datum × Except Error Json :=
  (.text field.1, field.2.toCanonical)

theorem canonicalEntries_fields (fields : List (String × Datum)) :
    canonicalEntries (fields.map fun field => (.text field.1, field.2)) = fields.map canonicalField := by
  induction fields with
  | nil => rfl
  | cons field fields ih =>
    rw [List.map_cons, canonicalEntries, ih]
    rfl

/-- What the images of some elements are moved to is the images of the moved elements. -/
theorem exists_map_eq_of_perm {α β : Type} {f : α → β} {ys : List β} {xs : List α}
    (h : ys.Perm (xs.map f)) : ∃ moved : List α, moved.Perm xs ∧ ys = moved.map f := by
  have hmoved : Relation.Comp (· = List.map f ·) List.Perm ys xs := by
    rw [List.eq_map_comp_perm]
    exact h
  obtain ⟨moved, rfl, hperm⟩ := hmoved
  exact ⟨moved, hperm, rfl⟩

/-- Fields are sorted by their names, which can always be compared. -/
theorem exists_sortEntries (fields : List (String × Datum)) :
    ∃ sorted : List (String × Datum), sorted.Perm fields ∧
      sortEntries (fields.map canonicalField) = .ok (sorted.map canonicalField) := by
  have hless : ∀ a : Datum × Except Error Json, (∃ name, a.1 = .text name) →
      ∀ b : Datum × Except Error Json, (∃ name, b.1 = .text name) → ∃ answer, less a.1 b.1 = .ok answer := by
    rintro a ⟨name, ha⟩ b ⟨other, hb⟩
    rw [ha, hb]
    exact ⟨_, rfl⟩
  have hnamed : ∀ entry ∈ fields.map canonicalField, ∃ name, entry.1 = .text name :=
    List.forall_mem_map.mpr fun field _ => ⟨field.1, rfl⟩
  obtain ⟨entries, hentries⟩ := Sorting.exists_sort hless hnamed
  obtain ⟨sorted, hsorted, rfl⟩ := exists_map_eq_of_perm (Sorting.perm_of_sort hentries)
  exact ⟨sorted, hsorted, hentries⟩

theorem collectMembers_eq_ok {fields : List (String × Datum)} {members : List (String × Json)}
    (h : List.Forall₂ (fun field member => member.1 = field.1 ∧ field.2.toCanonical = .ok member.2)
      fields members) :
    collectMembers (fields.map canonicalField) = .ok members := by
  induction h with
  | nil => rfl
  | @cons field member fields members hfirst _ ih =>
    obtain ⟨hname, hvalue⟩ := hfirst
    rw [List.map_cons, canonicalField, collectMembers, ih, hvalue, ← hname]
    rfl

/-! ## Looking into data -/

/-- An entry with the name of a field as its key, and a value that is related to that of the field. -/
def EntryOf (R : Datum → Datum → Prop) (field : String × Datum) (entry : Datum × Datum) : Prop :=
  entry.1 = .text field.1 ∧ R field.2 entry.2

/-- A relation under which data are looked into alike: a text is only related to itself, a list to
lists of related items, and a dictionary to dictionaries with related values under the same keys. -/
structure IsUniform (R : Datum → Datum → Prop) : Prop where
  text : ∀ {s : String} {d : Datum}, R (.text s) d → d = .text s
  list : ∀ {items : List Datum} {d : Datum}, R (.list items) d →
    ∃ others, d = .list others ∧ List.Forall₂ R items others
  dict : ∀ {fields : List (String × Datum)} {d : Datum}, R (.ofFields fields) d →
    ∃ sorted entries, sorted.Perm fields ∧ d = .dict entries ∧
      List.Forall₂ (EntryOf R) sorted entries

section

variable {R : Datum → Datum → Prop} {fields : List (String × Datum)} {entries : List (Datum × Datum)}

theorem exists_lookup_eq_some
    (h : List.Forall₂ (EntryOf R) fields entries)
    (hdistinct : (fields.map Prod.fst).Nodup) :
    ∀ field ∈ fields, ∃ value, lookup field.1 entries = some value ∧ R field.2 value := by
  induction h with
  | nil => exact List.forall_mem_nil _
  | @cons field entry fields entries hfirst _ ih =>
    obtain ⟨key, value⟩ := entry
    obtain ⟨rfl, hvalue⟩ := hfirst
    rw [List.map_cons, List.nodup_cons] at hdistinct
    refine List.forall_mem_cons.mpr ⟨⟨value, if_pos rfl, hvalue⟩, fun other hother => ?_⟩
    obtain ⟨found, hfound, hrelated⟩ := ih hdistinct.2 other hother
    have hne : field.1 ≠ other.1 := fun heq =>
      hdistinct.1 (heq ▸ List.mem_map_of_mem (f := Prod.fst) hother)
    exact ⟨found, (if_neg hne).trans hfound, hrelated⟩

theorem lookup_eq_none
    (h : List.Forall₂ (EntryOf R) fields entries)
    {name : String} (hname : name ∉ fields.map Prod.fst) : lookup name entries = none := by
  induction h with
  | nil => rfl
  | @cons field entry fields entries hfirst _ ih =>
    obtain ⟨key, value⟩ := entry
    obtain ⟨rfl, -⟩ := hfirst
    rw [List.map_cons, List.mem_cons, not_or] at hname
    exact (if_neg (Ne.symm hname.1)).trans (ih hname.2)

/-- What is related to a dictionary with distinct text keys has a related value under each of them,
and no other key. -/
theorem IsUniform.exists_entries (hR : IsUniform R) {d : Datum} (h : R (.ofFields fields) d)
    (hdistinct : (fields.map Prod.fst).Nodup) :
    ∃ entries, d = .dict entries ∧
      (∀ field ∈ fields, ∃ value, lookup field.1 entries = some value ∧ R field.2 value) ∧
      ∀ name, name ∉ fields.map Prod.fst → lookup name entries = none := by
  obtain ⟨sorted, entries, hperm, rfl, hrelated⟩ := hR.dict h
  have hnames : (sorted.map Prod.fst).Perm (fields.map Prod.fst) := hperm.map _
  refine ⟨entries, rfl, fun field hfield => ?_, fun name hname => ?_⟩
  · exact exists_lookup_eq_some hrelated (hnames.nodup_iff.mpr hdistinct) field
      (hperm.mem_iff.mpr hfield)
  · exact lookup_eq_none hrelated fun hmem => hname (hnames.mem_iff.mp hmem)

/-- Fields are related to their own entries, if each value is related to itself. -/
theorem forall₂_fields (hrefl : ∀ d, R d d) (fields : List (String × Datum)) :
    List.Forall₂ (EntryOf R) fields (fields.map fun field => (.text field.1, field.2)) := by
  rw [List.forall₂_map_right_iff, List.forall₂_same]
  exact fun field _ => ⟨rfl, hrefl field.2⟩

end

theorem isUniform_eq : IsUniform Eq where
  text h := h.symm
  list h := ⟨_, h.symm, by rw [List.forall₂_eq_eq_eq]⟩
  dict h := ⟨_, _, .refl _, h.symm, forall₂_fields (fun _ => rfl) _⟩

/-- Lists of entries with the same keys and alike values are alike entry by entry. -/
theorem forall₂_entries {xs ys : List (Datum × Datum)} (keys : xs.map Prod.fst = ys.map Prod.fst)
    (values : List.Forall₂ Alike (xs.map Prod.snd) (ys.map Prod.snd)) :
    List.Forall₂ (fun x y => y.1 = x.1 ∧ Alike x.2 y.2) xs ys := by
  induction xs generalizing ys with
  | nil =>
    obtain rfl := List.map_eq_nil_iff.mp keys.symm
    exact .nil
  | cons x xs ih =>
    cases ys with
    | nil => cases keys
    | cons y ys =>
      obtain ⟨hkey, hkeys⟩ := List.cons.inj keys
      obtain ⟨hvalue, hvalues⟩ := List.forall₂_cons.mp values
      exact .cons ⟨hkey.symm, hvalue⟩ (ih hkeys hvalues)

theorem isUniform_alike : IsUniform Alike where
  text h := by
    cases h
    rfl
  list h := by
    cases h with
    | refl => exact ⟨_, rfl, List.forall₂_same.mpr fun d _ => .refl d⟩
    | list items => exact ⟨_, rfl, items⟩
  dict {fields d} h := by
    generalize hd : ofFields fields = given at h
    cases h with
    | list => cases hd
    | refl =>
      obtain rfl := hd
      exact ⟨fields, _, .refl _, rfl, forall₂_fields .refl fields⟩
    | @dict xs zs ys moved keys values =>
      obtain rfl := Datum.dict.inj hd
      obtain ⟨sorted, hsorted, rfl⟩ := exists_map_eq_of_perm moved.symm
      have hentries := forall₂_entries keys values
      rw [List.forall₂_map_left_iff] at hentries
      exact ⟨sorted, ys, hsorted, rfl, hentries⟩

/-! ## Plain data -/

/-- A canonical form of a datum that loses nothing. -/
structure KeptBy (d : Datum) (j : Json) : Prop where
  toCanonical_eq : d.toCanonical = .ok j
  alike : Alike d (ofJson j)
  depth_eq : j.depth = d.depth
  readable : j.Readable

/-- The canonical text of a datum is that of its form. -/
theorem KeptBy.canonicalJson_eq {d : Datum} {j : Json} (h : KeptBy d j) :
    d.canonicalJson = .ok (Json.write Json.plain j) :=
  Result.map_eq_ok.mpr ⟨j, h.toCanonical_eq, rfl⟩

theorem exists_keptBy_list {items : List Datum} (h : ∀ d ∈ items, ∃ j, KeptBy d j) :
    ∃ j, KeptBy (.list items) j := by
  obtain ⟨values, hvalues⟩ := exists_forall₂ h
  have hcanonical : (canonicalItems items).mapM Prod.snd = .ok values := by
    rw [canonicalItems_eq_map, Result.mapM_eq_ok, List.forall₂_map_left_iff]
    exact hvalues.imp fun _ _ hkept => hkept.toCanonical_eq
  refine ⟨.array values, ?_, ?_, ?_, ?_⟩
  · rw [toCanonical, hcanonical]
    rfl
  · rw [ofJson, ofItems_eq_map]
    refine .list (List.forall₂_map_right_iff.mpr ?_)
    exact hvalues.imp fun _ _ hkept => hkept.alike
  · rw [Json.depth, depth, itemsDepth_eq_of_forall₂ (hvalues.imp fun _ _ hkept => hkept.depth_eq)]
  · exact .array (forall_mem_of_forall₂ hvalues fun _ _ _ hkept => hkept.readable)

theorem exists_keptBy_ofFields {fields : List (String × Datum)}
    (hdistinct : (fields.map Prod.fst).Nodup) (h : ∀ field ∈ fields, ∃ j, KeptBy field.2 j) :
    ∃ j, KeptBy (.ofFields fields) j := by
  obtain ⟨sorted, hperm, hsort⟩ := exists_sortEntries fields
  -- The members stand in the order of the sorted fields.
  obtain ⟨members, hmembers⟩ : ∃ members : List (String × Json), List.Forall₂
      (fun field member => member.1 = field.1 ∧ KeptBy field.2 member.2) sorted members := by
    refine exists_forall₂ fun field hfield => ?_
    obtain ⟨j, hj⟩ := h field (hperm.mem_iff.mp hfield)
    exact ⟨(field.1, j), rfl, hj⟩
  have hcollect : collectMembers (sorted.map canonicalField) = .ok members :=
    collectMembers_eq_ok (hmembers.imp fun _ _ hkept => ⟨hkept.1, hkept.2.toCanonical_eq⟩)
  have hnames : sorted.map Prod.fst = members.map Prod.fst :=
    map_eq_map_of_forall₂ hmembers fun _ _ hkept => hkept.1.symm
  have hdepth := entriesDepth_eq_of_forall₂ (hmembers.imp fun _ _ hkept => hkept.2.depth_eq)
  refine ⟨.object members, ?_, ?_, ?_, ?_⟩
  · rw [ofFields, toCanonical, canonicalEntries_fields]
    exact Result.bind_eq_ok.mpr ⟨_, hsort, Result.bind_eq_ok.mpr ⟨members, hcollect, rfl⟩⟩
  · rw [ofFields, ofJson, ofMembers_eq_map]
    refine .dict (hperm.symm.map _) ?_ ?_
    · have hkeys := congrArg (List.map Datum.text) hnames
      simpa only [List.map_map, Function.comp_def] using hkeys
    · simp only [List.map_map, Function.comp_def]
      rw [List.forall₂_map_left_iff, List.forall₂_map_right_iff]
      exact hmembers.imp fun _ _ hkept => hkept.2.alike
  · rw [Json.depth, ofFields, depth, hdepth, entriesDepth_eq_of_perm (hperm.map _)]
  · refine .object ?_ (forall_mem_of_forall₂ hmembers fun _ _ _ hkept => hkept.2.readable)
    rw [← hnames]
    exact (hperm.map Prod.fst).nodup_iff.mpr hdistinct

/-- Plain data have a canonical form that loses nothing. -/
theorem IsPlain.exists_keptBy {d : Datum} (h : IsPlain d) : ∃ j, KeptBy d j := by
  induction h with
  | null => exact ⟨.null, rfl, .refl _, rfl, .null⟩
  | boolean b => exact ⟨.boolean b, rfl, .refl _, rfl, .boolean b⟩
  | integer short =>
    exact ⟨.integer _, writable_eq_ok (.integer short), .refl _, rfl, .integer short⟩
  | text s => exact ⟨.string s, rfl, .refl _, rfl, .string s⟩
  | list _ ih => exact exists_keptBy_list ih
  | dict distinct _ ih => exact exists_keptBy_ofFields distinct ih

end RecordStore.Datum
