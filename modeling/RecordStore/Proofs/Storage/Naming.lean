import RecordStore.Proofs.Datum.Canonical
import RecordStore.Proofs.Storage.Ledger

/-!
# Names of structured identifiers

An identifier that is a dictionary, or an instance of a model, names its record by its canonical JSON
text. For plain data this name is one of a kind (`Datum.canonicalJson_names`): it tells everything
about an identifier but the order of entries, so that two of them have one key only where they are
the same identifier.
-/

namespace RecordStore

namespace Datum

variable {fields : List (String × Datum)} {id : Datum}

/-- Whether an identifier is the dictionary of some fields, or an instance of a model with them. -/
def IsStructure (fields : List (String × Datum)) (id : Datum) : Prop :=
  id = .ofFields fields ∨ ∃ shape given, id = .model shape fields given

/-- No JSON is written as an empty text. -/
theorem write_ne_empty (j : Json) : Json.write Json.plain j ≠ "" := by
  obtain ⟨c, tail, htext, -⟩ := Json.exists_writeOnto_eq (Json.rereads_plain (.lenient 0)) j []
  intro h
  rw [Json.write, htext] at h
  cases String.ofList_injective h

/-- A structured identifier is named by the canonical text of its fields. -/
theorem IsStructure.keyName_eq (h : IsStructure fields id) {j : Json}
    (hj : toCanonical (.ofFields fields) = .ok j) (hplain : IsPlain (.ofFields fields)) :
    id.keyName = .ok (Json.write Json.plain j) := by
  have hcanonical : id.toCanonical = .ok j := by
    obtain rfl | ⟨shape, given, rfl⟩ := h
    · exact hj
    · rw [hplain.toCanonical_model, hj]
  have hname : id.keyName = id.canonicalJson >>= fun name =>
      if name = "" then .error (.query .emptyIdentifier .null) else .ok name := by
    obtain rfl | ⟨shape, given, rfl⟩ := h <;> rfl
  rw [hname, canonicalJson, hcanonical]
  exact if_neg (write_ne_empty j)

/-- The keys of structured identifiers with plain fields are the same exactly if the fields are. -/
theorem IsStructure.exists_keys {xs ys : List (String × Datum)} {a b : Datum} (l : Layout)
    (hxs : IsPlain (.ofFields xs)) (hys : IsPlain (.ofFields ys)) (ha : IsStructure xs a)
    (hb : IsStructure ys b) :
    ∃ k k', l.keyOf a = .ok k ∧ l.keyOf b = .ok k' ∧
      (k = k' ↔ Alike (.ofFields xs) (.ofFields ys)) := by
  obtain ⟨j, hj⟩ := hxs.exists_keptBy
  obtain ⟨j', hj'⟩ := hys.exists_keptBy
  have hname := ha.keyName_eq hj.toCanonical_eq hxs
  have hname' := hb.keyName_eq hj'.toCanonical_eq hys
  obtain ⟨k, hk⟩ := Layout.exists_keyOf (l := l) hname
  obtain ⟨k', hk'⟩ := Layout.exists_keyOf (l := l) hname'
  refine ⟨k, k', hk, hk', ?_⟩
  rw [Layout.Names.eq_iff ⟨a, hname, hk⟩ ⟨b, hname', hk'⟩]
  exact KeptBy.write_eq_iff hxs hys hj hj'

/-- The fields of an identifier of a tenant and a number. -/
def compositeFields (tenant : String) (number : Int) : List (String × Datum) :=
  [("tenant", .text tenant), ("number", .integer number)]

/-- An identifier of a tenant and a number, as an instance of a model. -/
def compositeId (tenant : String) (number : Int) : Datum :=
  .model ⟨"CompositeId", []⟩ (compositeFields tenant number) ["tenant", "number"]

theorem isPlain_compositeFields (tenant : String) {number : Int}
    (h : number.natAbs < 10 ^ Number.maxDigits) : IsPlain (.ofFields (compositeFields tenant number)) :=
  isPlain_ofFields_iff.mpr ⟨by simp [compositeFields],
    List.forall_mem_cons.mpr ⟨.text tenant, List.forall_mem_singleton.mpr (.integer h)⟩⟩

/-- Composite identifiers are alike only if they are equal. -/
theorem alike_compositeFields_iff {tenant tenant' : String} {number number' : Int} :
    Alike (.ofFields (compositeFields tenant number)) (.ofFields (compositeFields tenant' number')) ↔
      tenant = tenant' ∧ number = number' := by
  constructor
  · intro h
    have hnames : (compositeFields tenant number).map Prod.fst =
        (compositeFields tenant' number').map Prod.fst := rfl
    have hfields := (alike_ofFields_iff_forall₂ hnames (by simp [compositeFields])).mp h
    obtain ⟨⟨-, htenant⟩, hfields⟩ := List.forall₂_cons.mp hfields
    obtain ⟨⟨-, hnumber⟩, -⟩ := List.forall₂_cons.mp hfields
    cases htenant
    cases hnumber
    exact ⟨rfl, rfl⟩
  · rintro ⟨rfl, rfl⟩
    exact .refl _

/-- The canonical text of plain data tells them up to the order of entries, and tells nothing about
this order. So structured identifiers with plain fields have the same key exactly if they are equal
up to this order, and those of a tenant and a number exactly if they are equal. -/
theorem canonicalJson_names :
    (∀ u v : Datum, IsPlain u → IsPlain v → ∃ s t, u.canonicalJson = .ok s ∧
      v.canonicalJson = .ok t ∧ (s = t ↔ Alike u v)) ∧
    (∀ (l : Layout) (xs ys : List (String × Datum)) (a b : Datum), IsPlain (.ofFields xs) →
      IsPlain (.ofFields ys) → IsStructure xs a → IsStructure ys b →
        ∃ k k', l.keyOf a = .ok k ∧ l.keyOf b = .ok k' ∧
          (k = k' ↔ Alike (.ofFields xs) (.ofFields ys))) ∧
    ∀ (l : Layout) (tenant tenant' : String) (number number' : Int),
      number.natAbs < 10 ^ Number.maxDigits → number'.natAbs < 10 ^ Number.maxDigits →
        ∃ k k', l.keyOf (compositeId tenant number) = .ok k ∧
          l.keyOf (compositeId tenant' number') = .ok k' ∧
            (k = k' ↔ tenant = tenant' ∧ number = number') := by
  refine ⟨fun u v hu hv => ?_, fun l xs ys a b => IsStructure.exists_keys l, ?_⟩
  · obtain ⟨j, hj⟩ := hu.exists_keptBy
    obtain ⟨k, hk⟩ := hv.exists_keptBy
    exact ⟨_, _, hj.canonicalJson_eq, hk.canonicalJson_eq, KeptBy.write_eq_iff hu hv hj hk⟩
  · intro l tenant tenant' number number' hnumber hnumber'
    rw [← alike_compositeFields_iff]
    exact IsStructure.exists_keys l (isPlain_compositeFields tenant hnumber)
      (isPlain_compositeFields tenant' hnumber') (.inr ⟨_, _, rfl⟩) (.inr ⟨_, _, rfl⟩)

/-- Two entries around some data. -/
def around (d : Datum) : List (String × Datum) := [("b", d), ("a", .text "x")]

/-- The entries around some data in the other order. -/
def aroundTurned (d : Datum) : List (String × Datum) := [("a", .text "x"), ("b", d)]

theorem isPlain_around {d : Datum} (h : IsPlain d) : IsPlain (.ofFields (around d)) :=
  isPlain_ofFields_iff.mpr ⟨by simp [around],
    List.forall_mem_cons.mpr ⟨h, List.forall_mem_singleton.mpr (.text "x")⟩⟩

theorem alike_around {d e : Datum} (h : Alike d e) :
    Alike (.ofFields (around d)) (.ofFields (aroundTurned e)) :=
  alike_ofFields_iff.mpr ⟨aroundTurned d, _, .swap .., rfl,
    .cons ⟨rfl, .refl _⟩ (.cons ⟨rfl, h⟩ .nil)⟩

/-- Two dictionaries in a list in a dictionary, with other orders of entries at both places. -/
theorem canonicalJson_names_nested :
    let u := Datum.list [.ofFields (around (.boolean true))]
    let v := Datum.list [.ofFields (aroundTurned (.boolean true))]
    let l : Layout := ⟨"Task", [], "id", none, by decide⟩
    (∃ text, canonicalJson (.ofFields (around u)) = .ok text ∧
      canonicalJson (.ofFields (aroundTurned v)) = .ok text) ∧
    (∃ key, l.keyOf (.ofFields (around u)) = .ok key ∧ l.keyOf (.ofFields (aroundTurned v)) = .ok key) ∧
    ∃ k k', l.keyOf (compositeId "a" 1) = .ok k ∧ l.keyOf (compositeId "a" 11) = .ok k' ∧ k ≠ k' := by
  intro u v l
  have hinner : IsPlain (.ofFields (around (.boolean true))) := isPlain_around (.boolean true)
  have hu : IsPlain (.ofFields (around u)) :=
    isPlain_around (.list (List.forall_mem_singleton.mpr hinner))
  -- Only the order of the entries differs, on both levels.
  have halike : Alike (.ofFields (around u)) (.ofFields (aroundTurned v)) :=
    alike_around (.list (.cons (alike_around (.refl _)) .nil))
  have hv : IsPlain (.ofFields (aroundTurned v)) := hu.of_alike halike
  refine ⟨?_, ?_, ?_⟩
  · obtain ⟨text, other, htext, hother, hsame⟩ := canonicalJson_names.1 _ _ hu hv
    obtain rfl := hsame.mpr halike
    exact ⟨text, htext, hother⟩
  · obtain ⟨key, other, hkey, hother, hsame⟩ :=
      canonicalJson_names.2.1 l _ _ _ _ hu hv (.inl rfl) (.inl rfl)
    obtain rfl := hsame.mpr halike
    exact ⟨key, hkey, hother⟩
  · obtain ⟨k, k', hk, hk', hsame⟩ := canonicalJson_names.2.2 l "a" "a" 1 11
      (Cursor.lt_of_le_maxDigits (by decide)) (Cursor.lt_of_le_maxDigits (by decide))
    exact ⟨k, k', hk, hk', fun h => absurd (hsame.mp h).2 (by decide)⟩

end Datum

end RecordStore
