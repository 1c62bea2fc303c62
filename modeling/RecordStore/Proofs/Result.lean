import Mathlib.Data.List.Forall2

/-!
# Results

Steps that may fail, taken one after the other: a run of them succeeds exactly when each step does.
The run relates what goes in and what comes out, element by element.
-/

namespace RecordStore.Result

variable {ε α β : Type}

theorem ok_ne_error {a : α} {e : ε} : (.ok a : Except ε α) ≠ .error e := nofun

/-- Two steps in a row succeed exactly when the first one does and the second one does with what the
first one gave. -/
theorem bind_eq_ok {first : Except ε α} {next : α → Except ε β} {b : β} :
    first >>= next = .ok b ↔ ∃ a, first = .ok a ∧ next a = .ok b := by
  constructor
  · intro h
    cases first with
    | error e => cases h
    | ok a => exact ⟨a, rfl, h⟩
  · rintro ⟨a, rfl, h⟩
    exact h

/-- Two steps in a row fail exactly when the first one does, or the second one does with what the
first one gave. -/
theorem bind_eq_error {first : Except ε α} {next : α → Except ε β} {e : ε} :
    first >>= next = .error e ↔ first = .error e ∨ ∃ a, first = .ok a ∧ next a = .error e := by
  cases first with
  | error other =>
    refine ⟨fun h => .inl (congrArg _ (Except.error.inj h)), ?_⟩
    rintro (h | ⟨_, ⟨⟩, _⟩)
    exact congrArg _ (Except.error.inj h)
  | ok a =>
    refine ⟨fun h => .inr ⟨a, rfl, h⟩, ?_⟩
    rintro (⟨⟨⟩⟩ | ⟨_, ⟨⟩, h⟩)
    exact h

theorem map_eq_ok {result : Except ε α} {f : α → β} {b : β} :
    result.map f = .ok b ↔ ∃ a, result = .ok a ∧ f a = b := by
  cases result with
  | error _ => exact iff_of_false nofun nofun
  | ok a => exact ⟨fun h => ⟨a, rfl, Except.ok.inj h⟩, fun ⟨_, ha, hb⟩ => Except.ok.inj ha ▸ hb ▸ rfl⟩

/-- Changing what a step gives changes nothing in how it fails. -/
theorem map_eq_error {result : Except ε α} {f : α → β} {e : ε} :
    result.map f = .error e ↔ result = .error e := by
  cases result with
  | error _ => exact ⟨fun h => congrArg _ (Except.error.inj h), fun h => h ▸ rfl⟩
  | ok _ => exact ⟨nofun, nofun⟩

/-- Without how it fails, a result tells what it gives. -/
theorem toOption_eq_some {result : Except ε α} {a : α} : result.toOption = some a ↔ result = .ok a := by
  cases result with
  | error _ => exact ⟨nofun, nofun⟩
  | ok _ => exact ⟨fun h => congrArg _ (Option.some.inj h), fun h => congrArg _ (Except.ok.inj h)⟩

theorem toOption_eq_none {result : Except ε α} : result.toOption = none ↔ ∃ e, result = .error e := by
  cases result with
  | error e => exact iff_of_true rfl ⟨e, rfl⟩
  | ok _ => exact iff_of_false nofun nofun

theorem toOption_map (result : Except ε α) (f : α → β) : (result.map f).toOption = result.toOption.map f := by
  cases result with
  | error _ => rfl
  | ok _ => rfl

/-- What two steps in a row give, if nothing is asked about how they fail. -/
theorem toOption_bind (first : Except ε α) (next : α → Except ε β) :
    (first >>= next).toOption = first.toOption.bind fun a => (next a).toOption := by
  cases first with
  | error _ => rfl
  | ok _ => rfl

/-- Taking a step for each element of a list succeeds exactly when each of the steps does. -/
theorem mapM_eq_ok {step : α → Except ε β} {xs : List α} {ys : List β} :
    xs.mapM step = .ok ys ↔ List.Forall₂ (fun x y => step x = .ok y) xs ys := by
  induction xs generalizing ys with
  | nil =>
    rw [List.mapM_nil, List.forall₂_nil_left_iff]
    exact ⟨fun h => (Except.ok.inj h).symm, fun h => h ▸ rfl⟩
  | cons x xs ih =>
    rw [List.mapM_cons, List.forall₂_cons_left_iff, bind_eq_ok]
    constructor
    · rintro ⟨y, hy, h⟩
      obtain ⟨rest, hrest, h⟩ := bind_eq_ok.mp h
      exact ⟨y, rest, hy, ih.mp hrest, (Except.ok.inj h).symm⟩
    · rintro ⟨y, rest, hy, hrest, rfl⟩
      exact ⟨y, hy, bind_eq_ok.mpr ⟨rest, ih.mpr hrest, rfl⟩⟩

/-- Where steps are taken for each element of a list, each of them must succeed. -/
theorem exists_mapM_eq_ok {step : α → Except ε β} {xs : List α} :
    (∃ ys, xs.mapM step = .ok ys) ↔ ∀ x ∈ xs, ∃ y, step x = .ok y := by
  simp only [mapM_eq_ok]
  induction xs with
  | nil => exact iff_of_true ⟨[], .nil⟩ (List.forall_mem_nil _)
  | cons x xs ih => simp [List.forall₂_cons_left_iff, ← ih, exists_and_left]

/-- Where steps are taken for each element of a list, one of them is what fails. -/
theorem exists_of_mapM_eq_error {step : α → Except ε β} {xs : List α} {e : ε}
    (h : xs.mapM step = .error e) : ∃ x ∈ xs, step x = .error e := by
  induction xs with
  | nil => cases h
  | cons x xs ih =>
    rw [List.mapM_cons, bind_eq_error] at h
    obtain hx | ⟨_, -, h⟩ := h
    · exact ⟨x, List.mem_cons_self, hx⟩
    · obtain hrest | ⟨_, -, ⟨⟩⟩ := bind_eq_error.mp h
      obtain ⟨y, hy, hfails⟩ := ih hrest
      exact ⟨y, List.mem_cons_of_mem x hy, hfails⟩

/-- The steps give some results exactly when each gives its own. -/
theorem mapM_eq_ok_iff_map {step : α → Except ε β} {xs : List α} {ys : List β} :
    xs.mapM step = .ok ys ↔ xs.map step = ys.map .ok := by
  rw [mapM_eq_ok, ← List.forall₂_eq_eq_eq, List.forall₂_map_left_iff, List.forall₂_map_right_iff]

/-- Taking a step for each element of a list, for its effect alone, succeeds exactly when each of the
steps does. -/
theorem forM_eq_ok {step : α → Except ε Unit} {xs : List α} :
    xs.forM step = .ok () ↔ ∀ x ∈ xs, step x = .ok () := by
  induction xs with
  | nil => exact iff_of_true rfl (List.forall_mem_nil _)
  | cons x xs ih =>
    rw [List.forall_mem_cons, ← ih]
    refine bind_eq_ok.trans ⟨?_, fun ⟨hx, hrest⟩ => ⟨(), hx, hrest⟩⟩
    rintro ⟨⟨⟩, hx, hrest⟩
    exact ⟨hx, hrest⟩

/-- A loop that fails does so at one of its items. -/
theorem exists_of_forM_eq_error {step : α → Except ε Unit} {xs : List α} {e : ε}
    (h : xs.forM step = .error e) : ∃ x ∈ xs, step x = .error e := by
  induction xs with
  | nil => cases h
  | cons x xs ih =>
    obtain hx | ⟨_, -, hrest⟩ := bind_eq_error.mp h
    · exact ⟨x, List.mem_cons_self, hx⟩
    · obtain ⟨y, hy, hfails⟩ := ih hrest
      exact ⟨y, List.mem_cons_of_mem x hy, hfails⟩

/-- Taking a step for each element of a list that itself comes out element by element. -/
theorem bind_mapM_cons (first : Option α) (rest : Option (List α)) (step : α → Option β) :
    ((do return (← first) :: (← rest)) : Option (List α)).bind (fun as => as.mapM step) =
      (first.bind step).bind fun b => (rest.bind fun as => as.mapM step).map (b :: ·) := by
  cases first with
  | none => rfl
  | some a =>
    have hnone : ((step a).bind fun _ => (none : Option (List β))) = none := by
      cases step a <;> rfl
    cases rest with
    | none => exact hnone.symm
    | some as =>
      refine List.mapM_cons.trans (congrArg (Option.bind (step a)) (funext fun b => ?_))
      exact (Option.map_eq_bind ..).symm

end RecordStore.Result

namespace RecordStore

variable {α β : Type} {R : α → β → Prop} {xs : List α} {ys : List β}

/-- What holds of each element of the second list by what relates it to the first. -/
theorem forall_mem_of_forall₂ {Q : β → Prop} (h : List.Forall₂ R xs ys)
    (hR : ∀ x ∈ xs, ∀ y, R x y → Q y) : ∀ y ∈ ys, Q y := by
  induction h with
  | nil => exact List.forall_mem_nil _
  | cons hxy _ ih =>
    obtain ⟨hx, hxs⟩ := List.forall_mem_cons.mp hR
    exact List.forall_mem_cons.mpr ⟨hx _ hxy, ih hxs⟩

/-- Related elements that agree in some respect agree in it one by one. -/
theorem map_eq_map_of_forall₂ {γ : Type} {f : α → γ} {g : β → γ} (h : List.Forall₂ R xs ys)
    (hR : ∀ x y, R x y → f x = g y) : xs.map f = ys.map g := by
  rw [← List.forall₂_eq_eq_eq, List.forall₂_map_left_iff, List.forall₂_map_right_iff]
  exact h.imp hR

/-- A list of related elements, if each has one. -/
theorem exists_forall₂ (h : ∀ x ∈ xs, ∃ y, R x y) : ∃ ys, List.Forall₂ R xs ys := by
  induction xs with
  | nil => exact ⟨[], .nil⟩
  | cons x xs ih =>
    obtain ⟨⟨y, hy⟩, hrest⟩ := List.forall_mem_cons.mp h
    obtain ⟨ys, hys⟩ := ih hrest
    exact ⟨y :: ys, .cons hy hys⟩

/-- For two related lists, a third one whose elements go with those of both, if each related pair has
such an element. -/
theorem exists_forall₂_both {γ : Type} {S : β → γ → Prop} {T : α → γ → Prop} (h : List.Forall₂ R xs ys)
    (hR : ∀ x ∈ xs, ∀ y, R x y → ∃ z, S y z ∧ T x z) :
    ∃ zs, List.Forall₂ S ys zs ∧ List.Forall₂ T xs zs := by
  induction h with
  | nil => exact ⟨[], .nil, .nil⟩
  | cons hxy _ ih =>
    obtain ⟨hx, hxs⟩ := List.forall_mem_cons.mp hR
    obtain ⟨z, hz, hz'⟩ := hx _ hxy
    obtain ⟨zs, hzs, hzs'⟩ := ih hxs
    exact ⟨z :: zs, .cons hz hzs, .cons hz' hzs'⟩

/-- Where two lists are related to one list, their elements are related to each other. -/
theorem forall₂_of_both {γ : Type} {S : α → γ → Prop} {T : β → γ → Prop} {zs : List γ}
    (hys : List.Forall₂ R xs ys) (hzs : List.Forall₂ S xs zs) (h : ∀ x ∈ xs, ∀ y z, R x y → S x z → T y z) :
    List.Forall₂ T ys zs := by
  induction hys generalizing zs with
  | nil =>
    cases hzs
    exact .nil
  | cons hxy _ ih =>
    cases hzs with
    | cons hxz hzs =>
      obtain ⟨hx, hxs⟩ := List.forall_mem_cons.mp h
      exact .cons (hx _ _ hxy hxz) (ih hzs hxs)

/-- Lists are equal if their elements can only be related where they are equal. -/
theorem eq_of_forall₂ {α : Type} {R : α → α → Prop} {xs ys : List α} (h : List.Forall₂ R xs ys)
    (hR : ∀ x ∈ xs, ∀ y ∈ ys, R x y → x = y) : xs = ys := by
  induction h with
  | nil => rfl
  | cons hxy _ ih =>
    have hfirst := hR _ List.mem_cons_self _ List.mem_cons_self hxy
    have hrest := ih fun x hx y hy => hR x (List.mem_cons_of_mem _ hx) y (List.mem_cons_of_mem _ hy)
    rw [hfirst, hrest]

end RecordStore
