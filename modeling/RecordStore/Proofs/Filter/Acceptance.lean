import RecordStore.Filter.Translation

/-!
# Acceptance

Which records a filter lets through, as a test that cannot fail: `accepts` is the answer of `passes`
wherever there is one. The foldings of filters keep what their parts accept
(`passes_conjunction`, `passes_disjunction`). A filter of known operators (`Every`) can be evaluated
on every record.
-/

namespace RecordStore.Filter

/-- Whether a record passes a filter; no record passes one that cannot be evaluated on it. -/
def accepts (r : Record) (f : Filter) : Bool :=
  match f.passes r with
  | .ok answer => answer
  | .error _ => false

/-- Whether a filter can be evaluated on a record. -/
def Evaluates (r : Record) (f : Filter) : Prop := f.passes r = .ok (f.accepts r)

variable {r : Record}

/-- A filter that gives an answer evaluates, and accepts as it answers. -/
theorem evaluates_of_passes_eq {f : Filter} {answer : Bool} (h : f.passes r = .ok answer) :
    f.Evaluates r ∧ f.accepts r = answer := by
  have haccepts : f.accepts r = answer := by rw [accepts, h]
  exact ⟨by rw [Evaluates, h, haccepts], haccepts⟩

theorem evaluates_everything : everything.Evaluates r := rfl

theorem accepts_of_isEverything {f : Filter} (h : f.isEverything) : f.accepts r = true := by
  cases f <;> first | rfl | cases h

theorem accepts_of_isNothing {f : Filter} (h : f.isNothing) : f.accepts r = false := by
  cases f <;> first | rfl | cases h

/-- All of some filters that can be evaluated are passed when each of them is. -/
theorem allPass_eq {parts : List Filter} (h : ∀ part ∈ parts, part.Evaluates r) :
    allPass r parts = .ok (parts.all (accepts r)) := by
  induction parts with
  | nil => rfl
  | cons part rest ih =>
    obtain ⟨hpart, hrest⟩ := List.forall_mem_cons.mp h
    rw [allPass, hpart, List.all_cons]
    cases part.accepts r with
    | false => rfl
    | true => exact ih hrest

/-- Some of the filters that can be evaluated is passed when one of them is. -/
theorem anyPasses_eq {parts : List Filter} (h : ∀ part ∈ parts, part.Evaluates r) :
    anyPasses r parts = .ok (parts.any (accepts r)) := by
  induction parts with
  | nil => rfl
  | cons part rest ih =>
    obtain ⟨hpart, hrest⟩ := List.forall_mem_cons.mp h
    rw [anyPasses, hpart, List.any_cons]
    cases part.accepts r with
    | false => exact ih hrest
    | true => rfl

/-- A column that a record does not have passes no comparison. -/
theorem evaluates_property {column : String} {c : Comparison} {operand : Value} :
    (property (.text column) (.known c) operand).Evaluates r ∧
      (property (.text column) (.known c) operand).accepts r =
        (Assoc.get? column r.columns).any fun stored => c.holds (stored.compare operand) := by
  apply evaluates_of_passes_eq
  rw [passes]
  cases hstored : Assoc.get? column r.columns with
  | none =>
    have hfind : r.find? (.text column) = .ok none := congrArg Except.ok hstored
    rw [hfind]
    rfl
  | some stored =>
    have hfind : r.find? (.text column) = .ok (some stored) := congrArg Except.ok hstored
    rw [hfind]
    rfl

/-- A composite whose parts evaluate accepts what its parts make of it. -/
theorem evaluates_composite (operator : Logical) {parts : List Filter}
    (h : ∀ part ∈ parts, part.Evaluates r) :
    (composite (.known operator) parts).Evaluates r ∧
      (composite (.known operator) parts).accepts r =
        match operator with
        | .and => parts.all (accepts r)
        | .or => parts.any (accepts r) := by
  apply evaluates_of_passes_eq
  cases operator with
  | and => exact allPass_eq h
  | or => exact anyPasses_eq h

/-- Leaving out filters that everything passes does not change what all of the filters let
through. -/
theorem all_accepts_filter (parts : List Filter) :
    (parts.filter fun part => !part.isEverything).all (accepts r) = parts.all (accepts r) := by
  rw [List.all_filter]
  refine List.all_congr rfl fun part => ?_
  cases h : part.isEverything with
  | false => rfl
  | true => simp [accepts_of_isEverything h]

/-- Leaving out filters that nothing passes does not change what any of the filters lets through. -/
theorem any_accepts_filter (parts : List Filter) :
    (parts.filter fun part => !part.isNothing).any (accepts r) = parts.any (accepts r) := by
  rw [List.any_filter]
  refine List.any_congr rfl fun part => ?_
  cases h : part.isNothing with
  | false => rfl
  | true => simp [accepts_of_isNothing h]

/-- The folded conjunction of filters is passed when each of them is. -/
theorem passes_conjunction {parts : List Filter} (h : ∀ part ∈ parts, part.Evaluates r) :
    (conjunction parts).passes r = .ok (parts.all (accepts r)) := by
  rw [← all_accepts_filter, conjunction]
  have hkept : ∀ part ∈ parts.filter fun part => !part.isEverything, part.Evaluates r :=
    fun part hpart => h part (List.mem_filter.mp hpart).1
  generalize parts.filter (fun part => !part.isEverything) = kept at hkept ⊢
  by_cases hnothing : kept.any isNothing
  · -- A part that nothing passes settles the whole.
    obtain ⟨part, hpart, hisNothing⟩ := List.any_eq_true.mp hnothing
    have hall : kept.all (accepts r) = false :=
      List.all_eq_false.mpr ⟨part, hpart, by simp [accepts_of_isNothing hisNothing]⟩
    rw [if_pos hnothing, hall]
    rfl
  · rw [if_neg hnothing]
    -- A lone part stands for the whole, and several are asked one after the other.
    match kept, hkept with
    | [], _ => rfl
    | [part], hkept => simpa [Evaluates] using hkept
    | first :: second :: rest, hkept => exact allPass_eq hkept

/-- The folded disjunction of filters is passed when one of them is. -/
theorem passes_disjunction {parts : List Filter} (h : ∀ part ∈ parts, part.Evaluates r) :
    (disjunction parts).passes r = .ok (parts.any (accepts r)) := by
  rw [disjunction]
  by_cases heverything : parts.any isEverything
  · -- A part that everything passes settles the whole.
    obtain ⟨part, hpart, hisEverything⟩ := List.any_eq_true.mp heverything
    have hany : parts.any (accepts r) :=
      List.any_eq_true.mpr ⟨part, hpart, accepts_of_isEverything hisEverything⟩
    rw [if_pos heverything, hany]
    rfl
  · rw [if_neg heverything, ← any_accepts_filter]
    have hkept : ∀ part ∈ parts.filter fun part => !part.isNothing, part.Evaluates r :=
      fun part hpart => h part (List.mem_filter.mp hpart).1
    generalize parts.filter (fun part => !part.isNothing) = kept at hkept ⊢
    match kept, hkept with
    | [], _ => rfl
    | [part], hkept => simpa [Evaluates] using hkept
    | first :: second :: rest, hkept => exact anyPasses_eq hkept

/-! ## All comparisons of a filter -/

/-- A filter of known operators, all of whose comparisons have a property. -/
inductive Every (p : String → Comparison → Value → Prop) : Filter → Prop
  | nothing : Every p .nothing
  | property {column : String} {c : Comparison} {operand : Value} (h : p column c operand) :
    Every p (.property (.text column) (.known c) operand)
  | composite {operator : Logical} {parts : List Filter} (h : ∀ part ∈ parts, Every p part) :
    Every p (.composite (.known operator) parts)

variable {p : String → Comparison → Value → Prop}

theorem every_property {column : String} {c : Comparison} {operand : Value} :
    (property (.text column) (.known c) operand).Every p ↔ p column c operand :=
  ⟨fun | .property h => h, .property⟩

theorem every_composite {operator : Logical} {parts : List Filter} :
    (composite (.known operator) parts).Every p ↔ ∀ part ∈ parts, part.Every p :=
  ⟨fun | .composite h => h, .composite⟩

/-- A filter of known operators can be evaluated on every record. -/
theorem Every.evaluates {f : Filter} (h : f.Every p) : f.Evaluates r := by
  induction h with
  | nothing => rfl
  | property => exact evaluates_property.1
  | @composite operator _ _ ih => exact (evaluates_composite operator ih).1

/-- A comparison accepts a record whose column has a value for which it holds. -/
theorem accepts_property {column : String} {c : Comparison} {operand : Value} :
    (property (.text column) (.known c) operand).accepts r =
      (Assoc.get? column r.columns).any fun stored => c.holds (stored.compare operand) :=
  evaluates_property.2

/-- A conjunction accepts what all parts accept, and a disjunction what some part does. -/
theorem accepts_composite {operator : Logical} {parts : List Filter}
    (h : (composite (.known operator) parts).Every p) :
    (composite (.known operator) parts).accepts r = true ↔
      match operator with
      | .and => ∀ part ∈ parts, part.accepts r = true
      | .or => ∃ part ∈ parts, part.accepts r = true := by
  have hparts : ∀ part ∈ parts, part.Evaluates r :=
    fun part hpart => (every_composite.mp h part hpart).evaluates
  rw [(evaluates_composite operator hparts).2]
  cases operator with
  | and => exact List.all_eq_true
  | or => exact List.any_eq_true

end RecordStore.Filter
