import RecordStore.Model.Codec
import RecordStore.Proofs.Result

/-!
# Stored forms

An instance is stored exactly if its identifier makes a key, its columns fit their types and its payload
can be written, and these make up the stored form (`Model.encode_eq_ok`). The columns of a layout have
distinct names, so each is found under its own name (`Layout.column?_of_mem`), and it is stored under
that name with the value that it takes from the instance (`Model.get?_of_encode`).
-/

namespace RecordStore

/-! ## Columns of layouts -/

namespace Layout

/-- Columns under their names. -/
def named (columns : List Column) : List (String × Column) := columns.map fun c => (c.name, c)

/-- Adding a column writes it under its name. -/
theorem named_putColumn (columns : List Column) (c : Column) :
    named (putColumn columns c) = Assoc.put c.name c (named columns) := by
  induction columns with
  | nil => rfl
  | cons old rest ih =>
    change named (putColumn (old :: rest) c) = Assoc.put c.name c ((old.name, old) :: named rest)
    rw [putColumn, Assoc.put]
    split
    · next hsame =>
      rw [hsame]
      rfl
    · exact congrArg ((old.name, old) :: ·) ih

/-- A column is found by its name. -/
theorem column?_eq_get? (l : Layout) (name : String) :
    l.column? name = Assoc.get? name (named l.columns) := by
  rw [column?]
  induction l.columns with
  | nil => rfl
  | cons c rest ih =>
    rw [List.find?_cons, named, List.map_cons, Assoc.get?, ih]
    by_cases h : c.name = name <;> simp [h, named]

/-- Columns of other names do not get in the way of a column. -/
theorem get?_named_foldl {name : String} {columns : List Column} (h : ∀ c ∈ columns, c.name ≠ name)
    (before : List Column) : Assoc.get? name (named (columns.foldl putColumn before)) =
      Assoc.get? name (named before) := by
  induction columns generalizing before with
  | nil => rfl
  | cons c rest ih =>
    obtain ⟨hfirst, hrest⟩ := List.forall_mem_cons.mp h
    rw [List.foldl_cons, ih hrest, named_putColumn, Assoc.get?_put_of_ne hfirst.symm]

/-- A column that is put replaces the one of its name, so no name stands twice. -/
theorem nodup_named_foldl {before : List Column} (h : (Assoc.keys (named before)).Nodup)
    (columns : List Column) : (Assoc.keys (named (columns.foldl putColumn before))).Nodup := by
  induction columns generalizing before with
  | nil => exact h
  | cons c rest ih =>
    rw [List.foldl_cons]
    refine ih ?_
    rw [named_putColumn]
    exact Assoc.nodup_keys_put h c.name c

/-- The columns of a layout have distinct names. -/
theorem nodup_named_make {kind idField : String} {columns : List Column} {parent : Option Key}
    {lifecycle : Bool} {l : Layout} (h : make kind columns idField parent lifecycle = .ok l) :
    (Assoc.keys (named l.columns)).Nodup := by
  rw [make] at h
  split at h
  · cases h
  · obtain rfl := Except.ok.inj h
    have hnone : (Assoc.keys (named [])).Nodup := List.nodup_nil
    exact nodup_named_foldl hnone _

/-- Where names are distinct, each column is found under its own name. -/
theorem column?_of_mem {l : Layout} (hnames : (Assoc.keys (named l.columns)).Nodup) {c : Column}
    (hc : c ∈ l.columns) : l.column? c.name = some c := by
  have hmem : (c.name, c) ∈ named l.columns := List.mem_map_of_mem hc
  rw [column?_eq_get?]
  exact Assoc.get?_of_mem hnames hmem

end Layout

/-! ## Encoding -/

namespace Model

variable {registry : Registry} {layout : Layout} {d : Datum}

/-- What the stored form of an instance is made up of. -/
theorem encode_eq_ok {r : Record} :
    encode registry layout d = .ok r ↔ layout.keyOf (layout.idOf d) = .ok r.key ∧
      columnValues registry layout d = .ok r.columns ∧ payload d = .ok r.payload := by
  rw [encode, Result.bind_eq_ok]
  constructor
  · rintro ⟨key, hkey, h⟩
    obtain ⟨columns, hcolumns, h⟩ := Result.bind_eq_ok.mp h
    split at h
    · next hpayload =>
      obtain rfl := Except.ok.inj h
      exact ⟨hkey, hcolumns, hpayload⟩
    · cases h
  · rintro ⟨hkey, hcolumns, hpayload⟩
    refine ⟨_, hkey, Result.bind_eq_ok.mpr ⟨_, hcolumns, ?_⟩⟩
    rw [hpayload]
    rfl

/-- The stored form of an instance has the key of its identifier, and its payload. -/
theorem of_encode {r : Record} (h : encode registry layout d = .ok r) :
    layout.keyOf (layout.idOf d) = .ok r.key ∧ payload d = .ok r.payload := by
  obtain ⟨hkey, -, hpayload⟩ := encode_eq_ok.mp h
  exact ⟨hkey, hpayload⟩

/-- Each column is stored under its name with what its datum is converted to. -/
theorem columnValues_eq_ok {values : List (String × Value)} :
    columnValues registry layout d = .ok values ↔ List.Forall₂ (fun c entry =>
      ∃ v, registry.toValue (c.read d) (some c.type) = .ok v ∧ entry = (c.name, v))
      layout.columns values := by
  have hentry (c : Column) (entry : String × Value) :
      (do return (c.name, ← registry.toValue (c.read d) (some c.type))) = Except.ok entry ↔
        ∃ v, registry.toValue (c.read d) (some c.type) = .ok v ∧ entry = (c.name, v) := by
    refine Result.bind_eq_ok.trans (exists_congr fun v => and_congr_right fun _ => ?_)
    exact ⟨fun h => (Except.ok.inj h).symm, fun h => congrArg Except.ok h.symm⟩
  rw [columnValues, Result.mapM_eq_ok]
  simp only [hentry]

/-- A column of the layout is stored with the value that it takes from the instance. -/
theorem get?_of_encode {r : Record} (h : encode registry layout d = .ok r) {name : String} {c : Column}
    (hcolumn : layout.column? name = some c) :
    ∃ v, registry.toValue (c.read d) (some c.type) = .ok v ∧ Assoc.get? name r.columns = some v := by
  obtain ⟨-, hcolumns, -⟩ := encode_eq_ok.mp h
  have hvalues := columnValues_eq_ok.mp hcolumns
  rw [Layout.column?_eq_get?] at hcolumn
  clear h hcolumns
  -- The induction is on the columns together with their values: the first column of the name is found,
  -- and its value stands first under the name.
  generalize layout.columns = columns, r.columns = values at hvalues hcolumn
  induction hvalues with
  | nil => cases hcolumn
  | @cons first entry rest others hfirst _ ih =>
    obtain ⟨v, hv, rfl⟩ := hfirst
    change (if first.name = name then some first else Assoc.get? name (Layout.named rest)) = _ at hcolumn
    rw [Assoc.get?]
    split at hcolumn
    · next hname =>
      obtain rfl := Option.some.inj hcolumn
      exact ⟨v, hv, if_pos hname⟩
    · next hname =>
      obtain ⟨w, hw, hget⟩ := ih hcolumn
      exact ⟨w, hw, (if_neg hname).trans hget⟩

/-- An instance is stored if it has a key, its columns fit their types, and its payload can be written. -/
theorem exists_encode (hkey : ∃ key, layout.keyOf (layout.idOf d) = .ok key)
    (hcolumns : ∀ c ∈ layout.columns, ∃ v, registry.toValue (c.read d) (some c.type) = .ok v)
    (hpayload : ∃ bytes, payload d = .ok bytes) : ∃ r, encode registry layout d = .ok r := by
  obtain ⟨key, hkey⟩ := hkey
  obtain ⟨bytes, hbytes⟩ := hpayload
  have hentries : ∀ c ∈ layout.columns, ∃ entry : String × Value, ∃ v,
      registry.toValue (c.read d) (some c.type) = .ok v ∧ entry = (c.name, v) := by
    intro c hc
    obtain ⟨v, hv⟩ := hcolumns c hc
    exact ⟨(c.name, v), v, hv, rfl⟩
  obtain ⟨values, hvalues⟩ := exists_forall₂ hentries
  exact ⟨⟨key, values, bytes⟩, encode_eq_ok.mpr ⟨hkey, columnValues_eq_ok.mpr hvalues, hbytes⟩⟩

end Model

end RecordStore
