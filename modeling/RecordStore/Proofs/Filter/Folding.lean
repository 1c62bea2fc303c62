import RecordStore.Proofs.Plan.Strategies
import RecordStore.Proofs.Predicate.Depth
import RecordStore.Script

/-!
# Folded filters

The translation of a predicate folds constants, and leaves none behind. What the shape of a tree
alone says is its `verdict` on made-up answers of its conditions: the filter is `nothing` exactly if
the verdict is false although every condition is met, and `everything` exactly if it is true although
none is. Every other filter is `Folded`, without a constant or a lone part anywhere in it, and
compares what some of the conditions compare, in their order. The main statement is
`Reader.fetchByQuery_folded`.
-/

namespace RecordStore

namespace Predicate

/-- The nodes of a tree are all of a type that is known here. -/
inductive Known : Predicate → Prop
  | node {connective : Connective} {conditions : List Condition} {children : List Predicate}
      (own : ∀ typeName shown, connective ≠ .foreign typeName shown)
      (below : ∀ child ∈ children, Known child) : Known (.node connective conditions children)

mutual

/-- The conditions of a tree in their order: those of a node before those of its children. -/
def allConditions : Predicate → List Condition
  | .node _ conditions children => conditions ++ conditionsOfAll children

/-- The conditions of some trees, one tree behind the other. -/
def conditionsOfAll : List Predicate → List Condition
  | [] => []
  | child :: rest => allConditions child ++ conditionsOfAll rest

end

mutual

/-- What a tree says if its conditions answer so. -/
def verdict (meets : Condition → Bool) : Predicate → Bool
  | .node .all conditions children => (conditions.map meets ++ verdicts meets children).all id
  | .node .any conditions children => (conditions.map meets ++ verdicts meets children).any id
  | .node (.foreign _ _) _ _ => false

/-- What each of some trees says if their conditions answer so. -/
def verdicts (meets : Condition → Bool) : List Predicate → List Bool
  | [] => []
  | child :: rest => verdict meets child :: verdicts meets rest

end

theorem conditionsOfAll_eq_flatMap (children : List Predicate) :
    conditionsOfAll children = children.flatMap allConditions := by
  induction children with
  | nil => rfl
  | cons child rest ih => rw [conditionsOfAll, ih, List.flatMap_cons]

theorem verdicts_eq_map (meets : Condition → Bool) (children : List Predicate) :
    verdicts meets children = children.map (verdict meets) := by
  induction children with
  | nil => rfl
  | cons child rest ih => rw [verdicts, ih, List.map_cons]

/-- Conditions of a node, and those of its children, are conditions of the tree. -/
theorem forall_mem_allConditions {q : Condition → Prop} {connective : Connective}
    {conditions : List Condition} {children : List Predicate} :
    (∀ condition ∈ allConditions (.node connective conditions children), q condition) ↔
      (∀ condition ∈ conditions, q condition) ∧
        ∀ child ∈ children, ∀ condition ∈ child.allConditions, q condition := by
  simp only [allConditions, conditionsOfAll_eq_flatMap, List.forall_mem_append,
    List.forall_mem_flatMap]

/-- An empty predicate has no conditions. -/
theorem allConditions_of_isEmpty {p : Predicate} (h : p.isEmpty = true) : p.allConditions = [] := by
  rw [eq_of_isEmpty h]
  rfl

/-- The more conditions are met, the more trees are: no node turns an answer around. -/
theorem verdict_mono {meets meets' : Condition → Bool} (h : ∀ c, meets c = true → meets' c = true)
    (p : Predicate) : p.verdict meets = true → p.verdict meets' = true := by
  induction p using Predicate.induction with
  | node connective conditions children ih =>
    intro hverdict
    cases connective with
    | all =>
      simp only [verdict, verdicts_eq_map, List.all_append, List.all_map, Bool.and_eq_true,
        List.all_eq_true] at hverdict ⊢
      obtain ⟨hconditions, hchildren⟩ := hverdict
      exact ⟨fun c hc => h c (hconditions c hc),
        fun child hchild => ih child hchild (hchildren child hchild)⟩
    | any =>
      simp only [verdict, verdicts_eq_map, List.any_append, List.any_map, Bool.or_eq_true,
        List.any_eq_true] at hverdict ⊢
      obtain ⟨c, hc, hmet⟩ | ⟨child, hchild, hmet⟩ := hverdict
      · exact .inl ⟨c, hc, h c hmet⟩
      · exact .inr ⟨child, hchild, ih child hchild hmet⟩
    | foreign typeName shown => cases hverdict

/-- The verdict is what a predicate says of a record on which its conditions answer so. -/
theorem evaluate_eq_verdict {c : Conversion} {r : Record} {meets : Condition → Bool} {p : Predicate}
    (hknown : p.Known)
    (h : ∀ condition ∈ p.allConditions, condition.evaluate c r = .ok (meets condition)) :
    p.evaluate c r = .ok (p.verdict meets) := by
  induction hknown with
  | @node connective conditions children own _ ih =>
    obtain ⟨hconditions, hchildren⟩ := forall_mem_allConditions.mp h
    -- No part fails, so that the order in which they are asked does not matter.
    have hanswers : conditions.map (Condition.evaluate c r) ++ evaluations c r children =
        (conditions.map meets ++ verdicts meets children).map .ok := by
      rw [evaluations_eq_map, verdicts_eq_map, List.map_append, List.map_map, List.map_map]
      exact congrArg₂ (· ++ ·) (List.map_congr_left hconditions)
        (List.map_congr_left fun child hchild => ih child hchild (hchildren child hchild))
    cases connective with
    | all => rw [evaluate, hanswers, settle_false_map_ok, verdict]
    | any => rw [evaluate, hanswers, settle_true_map_ok, verdict]
    | foreign typeName shown => exact absurd rfl (own typeName shown)

end Predicate

namespace Filter

/-- Filters without constants, whose composites have two or more parts. -/
inductive Folded : Filter → Prop
  | property {column : Datum} {c : Comparison} {operand : Value} :
    Folded (.property column (.known c) operand)
  | composite {operator : Logical} {parts : List Filter} (several : 2 ≤ parts.length)
    (h : ∀ part ∈ parts, Folded part) : Folded (.composite (.known operator) parts)

mutual

/-- The comparisons in a filter, from left to right. -/
def comparisons : Filter → List Filter
  | .property column operator operand => [.property column operator operand]
  | .composite _ parts => comparisonsOfAll parts
  | .everything | .nothing | .unsupported => []

/-- The comparisons in some filters, one filter behind the other. -/
def comparisonsOfAll : List Filter → List Filter
  | [] => []
  | part :: rest => comparisons part ++ comparisonsOfAll rest

end

theorem comparisonsOfAll_eq_flatMap (parts : List Filter) :
    comparisonsOfAll parts = parts.flatMap comparisons := by
  induction parts with
  | nil => rfl
  | cons part rest ih => rw [comparisonsOfAll, ih, List.flatMap_cons]

/-! ## Folding one level -/

@[simp]
theorem isNothing_iff {f : Filter} : f.isNothing = true ↔ f = .nothing := by
  cases f <;> simp [isNothing]

@[simp]
theorem isEverything_iff {f : Filter} : f.isEverything = true ↔ f = .everything := by
  cases f <;> simp [isEverything]

@[simp]
theorem isNothing_eq_false_iff {f : Filter} : f.isNothing = false ↔ f ≠ .nothing := by
  rw [← Bool.not_eq_true, isNothing_iff]

@[simp]
theorem isEverything_eq_false_iff {f : Filter} : f.isEverything = false ↔ f ≠ .everything := by
  rw [← Bool.not_eq_true, isEverything_iff]

/-- What may be left of filters that are combined: a constant, one of them, or several of them, none
of which is a constant. -/
inductive LeftOf (operator : Logical) (parts : List Filter) : Filter → Prop
  | nothing : LeftOf operator parts .nothing
  | everything : LeftOf operator parts .everything
  | lone {part : Filter} (h : part ∈ parts) : LeftOf operator parts part
  | several {kept : List Filter} (hsublist : kept.Sublist parts) (hlength : 2 ≤ kept.length)
    (hnothing : ∀ part ∈ kept, part ≠ .nothing) (heverything : ∀ part ∈ kept, part ≠ .everything) :
    LeftOf operator parts (.composite (.known operator) kept)

/-- What is left of a conjunction: constants are folded away. -/
theorem leftOf_conjunction (parts : List Filter) : LeftOf .and parts (conjunction parts) := by
  rw [conjunction]
  have hsublist : (parts.filter fun part => !part.isEverything).Sublist parts := List.filter_sublist
  have heverything : ∀ part ∈ parts.filter fun part => !part.isEverything, part ≠ .everything := by
    simp
  generalize parts.filter (fun part => !part.isEverything) = kept at hsublist heverything ⊢
  split
  · exact .nothing
  · next hnothing =>
    rcases kept with _ | ⟨part, _ | ⟨second, rest⟩⟩
    · exact .everything
    · exact .lone (hsublist.subset List.mem_cons_self)
    · refine .several hsublist (by simp) (fun part hpart hconstant => hnothing ?_) heverything
      exact List.any_eq_true.mpr ⟨part, hpart, isNothing_iff.mpr hconstant⟩

/-- What is left of a disjunction: constants are folded away. -/
theorem leftOf_disjunction (parts : List Filter) : LeftOf .or parts (disjunction parts) := by
  rw [disjunction]
  have hsublist : (parts.filter fun part => !part.isNothing).Sublist parts := List.filter_sublist
  have hnothing : ∀ part ∈ parts.filter fun part => !part.isNothing, part ≠ .nothing := by simp
  split
  · exact .everything
  · next heverything =>
    -- No part is the filter that everything passes, so that none of those kept is.
    have hkept : ∀ part ∈ parts.filter fun part => !part.isNothing, part ≠ .everything :=
      fun part hpart hconstant => heverything (List.any_eq_true.mpr
        ⟨part, hsublist.subset hpart, isEverything_iff.mpr hconstant⟩)
    generalize parts.filter (fun part => !part.isNothing) = kept at hsublist hnothing hkept ⊢
    rcases kept with _ | ⟨part, _ | ⟨second, rest⟩⟩
    · exact .nothing
    · exact .lone (hsublist.subset List.mem_cons_self)
    · exact .several hsublist (by simp) hnothing hkept

/-- One part that nothing passes makes a conjunction the filter that nothing passes. -/
theorem isNothing_conjunction (parts : List Filter) :
    (conjunction parts).isNothing = parts.any isNothing := by
  -- Only a filter that everything passes is left out, and it is not the one that nothing passes.
  have hkept : (parts.filter fun part => !part.isEverything).any isNothing = parts.any isNothing := by
    rw [List.any_filter]
    refine List.any_congr rfl fun part => ?_
    cases part <;> rfl
  rw [conjunction, ← hkept]
  generalize parts.filter (fun part => !part.isEverything) = kept
  split
  · next hnothing => exact hnothing.symm
  · next hnothing =>
    rw [Bool.not_eq_true] at hnothing
    rcases kept with _ | ⟨part, _ | ⟨second, rest⟩⟩
    · rfl
    · simp
    · exact hnothing.symm

/-- Only parts that everything passes make a conjunction the filter that everything passes. -/
theorem isEverything_conjunction (parts : List Filter) :
    (conjunction parts).isEverything = parts.all isEverything := by
  rw [conjunction]
  -- The conjunction folds to everything if no part is left over.
  have hkept : (parts.filter fun part => !part.isEverything) = [] ↔ parts.all isEverything = true := by
    simp
  have hothers : ∀ part ∈ parts.filter fun part => !part.isEverything, part.isEverything = false := by
    simp
  generalize parts.filter (fun part => !part.isEverything) = kept at hkept hothers ⊢
  rw [Bool.eq_iff_iff, ← hkept]
  split
  · next hnothing =>
    rcases kept with _ | ⟨part, rest⟩
    · simp at hnothing
    · simp [isEverything]
  · rcases kept with _ | ⟨part, _ | ⟨second, rest⟩⟩
    · simp [isEverything]
    · simpa using hothers
    · simp [isEverything]

/-- Only parts that nothing passes make a disjunction the filter that nothing passes. -/
theorem isNothing_disjunction (parts : List Filter) :
    (disjunction parts).isNothing = parts.all isNothing := by
  rw [disjunction]
  have hkept : (parts.filter fun part => !part.isNothing) = [] ↔ parts.all isNothing = true := by
    simp
  have hothers : ∀ part ∈ parts.filter fun part => !part.isNothing, part.isNothing = false := by
    simp
  split
  · next heverything =>
    -- A part that everything passes is not one that nothing passes.
    obtain ⟨part, hpart, hisEverything⟩ := List.any_eq_true.mp heverything
    obtain rfl := isEverything_iff.mp hisEverything
    exact (List.all_eq_false.mpr ⟨_, hpart, Bool.false_ne_true⟩).symm
  · generalize parts.filter (fun part => !part.isNothing) = kept at hkept hothers ⊢
    rw [Bool.eq_iff_iff, ← hkept]
    rcases kept with _ | ⟨part, _ | ⟨second, rest⟩⟩
    · simp [isNothing]
    · simpa using hothers
    · simp [isNothing]

/-- One part that everything passes makes a disjunction the filter that everything passes. -/
theorem isEverything_disjunction (parts : List Filter) :
    (disjunction parts).isEverything = parts.any isEverything := by
  rw [disjunction]
  split
  · next heverything => exact heverything.symm
  · next heverything =>
    rw [Bool.not_eq_true] at heverything
    rw [heverything]
    have hkept : ∀ part ∈ parts.filter fun part => !part.isNothing, part.isEverything = false :=
      fun part hpart => Bool.eq_false_iff.mpr
        (List.any_eq_false.mp heverything part (List.mem_filter.mp hpart).1)
    generalize parts.filter (fun part => !part.isNothing) = kept at hkept ⊢
    rcases kept with _ | ⟨part, _ | ⟨second, rest⟩⟩
    · rfl
    · exact hkept part List.mem_cons_self
    · rfl

namespace LeftOf

variable {operator : Logical} {parts : List Filter} {f : Filter}

/-- What is left of filters that are constants or folded is a constant or folded. -/
theorem folded (h : LeftOf operator parts f)
    (hparts : ∀ part ∈ parts, part ≠ .nothing → part ≠ .everything → part.Folded)
    (hnothing : f ≠ .nothing) (heverything : f ≠ .everything) : f.Folded := by
  cases h with
  | nothing => exact absurd rfl hnothing
  | everything => exact absurd rfl heverything
  | lone hpart => exact hparts f hpart hnothing heverything
  | several hsublist hlength hnothings heverythings =>
    exact .composite hlength fun part hpart =>
      hparts part (hsublist.subset hpart) (hnothings part hpart) (heverythings part hpart)

/-- Combining filters adds no comparison and keeps their order. -/
theorem comparisons_sublist (h : LeftOf operator parts f) :
    f.comparisons.Sublist (parts.flatMap comparisons) := by
  cases h with
  | nothing => exact List.nil_sublist _
  | everything => exact List.nil_sublist _
  | lone hpart =>
    simpa using (List.singleton_sublist.mpr hpart).flatMap comparisons
  | several hsublist =>
    rw [comparisons, comparisonsOfAll_eq_flatMap]
    exact hsublist.flatMap comparisons

end LeftOf

/-! ## Folding trees -/

variable {c : Conversion}

/-- The filter of a condition is a comparison, with the column of the condition. -/
theorem ofCondition_eq_property {condition : Condition} {f : Filter}
    (h : ofCondition c condition = .ok f) :
    ∃ v, f = .property condition.column (.known condition.operator) v :=
  (ofCondition_eq_ok.mp h).imp fun _ => And.right

theorem exists_ofCondition {condition : Condition} {v : Value} (h : c.convert condition = .ok v) :
    ∃ f, ofCondition c condition = .ok f :=
  ⟨_, ofCondition_eq_ok.mpr ⟨v, h, rfl⟩⟩

/-- Parts whose filters look as the parts say: their looks, in order, are what the parts say. -/
theorem map_eq_of_mapM {α β : Type} {translate : α → Except Error Filter} {parts : List α}
    {filters : List Filter} {look : Filter → β} {said : α → β}
    (hfilters : parts.mapM translate = .ok filters)
    (h : ∀ part ∈ parts, ∀ f, translate part = .ok f → look f = said part) :
    filters.map look = parts.map said := by
  have hrelated := (List.forall₂_and_left _ _).mpr ⟨h, Result.mapM_eq_ok.mp hfilters⟩
  clear h hfilters
  induction hrelated with
  | nil => rfl
  | cons hpart _ ih =>
    obtain ⟨hlook, htranslate⟩ := hpart
    rw [List.map_cons, List.map_cons, hlook _ htranslate, ih]

/-- The filters of a node's own conditions and of its children, and how the filter of the node comes
from them. -/
theorem ofNode_eq_ok {connective : Connective} {conditions : List Condition}
    {children : List Predicate} {f : Filter}
    (h : ofNode c (.node connective conditions children) = .ok f) :
    ∃ conditionFilters childFilters, conditions.mapM (ofCondition c) = .ok conditionFilters ∧
      children.mapM (ofNode c) = .ok childFilters ∧
        (connective = .all ∧ f = conjunction (conditionFilters ++ childFilters) ∨
          connective = .any ∧ f = disjunction (conditionFilters ++ childFilters)) := by
  obtain ⟨conditionFilters, hconditions, h⟩ := Result.bind_eq_ok.mp h
  obtain ⟨childFilters, hchildren, h⟩ := Result.bind_eq_ok.mp h
  rw [ofNodes_eq_mapM] at hchildren
  refine ⟨conditionFilters, childFilters, hconditions, hchildren, ?_⟩
  cases connective with
  | all => exact .inl ⟨rfl, (Except.ok.inj h).symm⟩
  | any => exact .inr ⟨rfl, (Except.ok.inj h).symm⟩
  | foreign typeName shown => cases h

/-- A tree of known nodes whose values fit their columns is translated. -/
theorem exists_ofNode {p : Predicate} (hknown : p.Known)
    (hvalues : ∀ condition ∈ p.allConditions, ∃ v, c.convert condition = .ok v) :
    ∃ f, ofNode c p = .ok f := by
  induction hknown with
  | @node connective conditions children own _ ih =>
    obtain ⟨hconditions, hchildren⟩ := Predicate.forall_mem_allConditions.mp hvalues
    obtain ⟨conditionFilters, hconditionFilters⟩ := Result.exists_mapM_eq_ok.mpr fun condition hmem =>
      exists_ofCondition (hconditions condition hmem).choose_spec
    obtain ⟨childFilters, hchildFilters⟩ := Result.exists_mapM_eq_ok.mpr fun child hmem =>
      ih child hmem (hchildren child hmem)
    rw [ofNode, hconditionFilters, ofNodes_eq_mapM, hchildFilters]
    cases connective with
    | all => exact ⟨_, rfl⟩
    | any => exact ⟨_, rfl⟩
    | foreign typeName shown => exact absurd rfl (own typeName shown)

/-- The values of a tree that is translated fit their columns. -/
theorem exists_convert_of_ofNode {p : Predicate} {f : Filter} (h : ofNode c p = .ok f) :
    ∀ condition ∈ p.allConditions, ∃ v, c.convert condition = .ok v := by
  induction p using Predicate.induction generalizing f with
  | node connective conditions children ih =>
    obtain ⟨conditionFilters, childFilters, hconditions, hchildren, -⟩ := ofNode_eq_ok h
    refine Predicate.forall_mem_allConditions.mpr ⟨fun condition hmem => ?_, fun child hmem => ?_⟩
    · obtain ⟨g, hg⟩ := Result.exists_mapM_eq_ok.mp ⟨_, hconditions⟩ condition hmem
      exact (ofCondition_eq_ok.mp hg).imp fun _ => And.left
    · obtain ⟨g, hg⟩ := Result.exists_mapM_eq_ok.mp ⟨_, hchildren⟩ child hmem
      exact ih child hmem hg

/-- Nothing passes the filter of a tree exactly if the tree is false whatever its conditions
answer. -/
theorem isNothing_ofNode {p : Predicate} {f : Filter} (h : ofNode c p = .ok f) :
    f.isNothing = !p.verdict fun _ => true := by
  induction p using Predicate.induction generalizing f with
  | node connective conditions children ih =>
    obtain ⟨conditionFilters, childFilters, hconditions, hchildren, h⟩ := ofNode_eq_ok h
    -- A translated condition is never nothing, as if every record met it.
    have hparts : (conditionFilters ++ childFilters).map isNothing =
        (conditions.map (fun _ => true) ++ Predicate.verdicts (fun _ => true) children).map not := by
      rw [List.map_append, List.map_append, Predicate.verdicts_eq_map, List.map_map, List.map_map,
        map_eq_of_mapM hchildren fun child hchild f hf => ih child hchild hf]
      refine congrArg (· ++ _) (map_eq_of_mapM hconditions fun condition _ f hf => ?_)
      obtain ⟨v, rfl⟩ := ofCondition_eq_property hf
      rfl
    obtain ⟨rfl, rfl⟩ | ⟨rfl, rfl⟩ := h
    · rw [isNothing_conjunction, Predicate.verdict, List.not_all_eq_any_not]
      simpa [List.any_map, Function.comp_def] using congrArg (List.any · id) hparts
    · rw [isNothing_disjunction, Predicate.verdict, List.not_any_eq_all_not]
      simpa [List.all_map, Function.comp_def] using congrArg (List.all · id) hparts

/-- Everything passes the filter of a tree exactly if the tree is true whatever its conditions
answer. -/
theorem isEverything_ofNode {p : Predicate} {f : Filter} (h : ofNode c p = .ok f) :
    f.isEverything = p.verdict fun _ => false := by
  induction p using Predicate.induction generalizing f with
  | node connective conditions children ih =>
    obtain ⟨conditionFilters, childFilters, hconditions, hchildren, h⟩ := ofNode_eq_ok h
    -- A translated condition is never everything, as if no record met it.
    have hparts : (conditionFilters ++ childFilters).map isEverything =
        conditions.map (fun _ => false) ++ Predicate.verdicts (fun _ => false) children := by
      rw [List.map_append, Predicate.verdicts_eq_map,
        map_eq_of_mapM hchildren fun child hchild f hf => ih child hchild hf]
      refine congrArg (· ++ _) (map_eq_of_mapM hconditions fun condition _ f hf => ?_)
      obtain ⟨v, rfl⟩ := ofCondition_eq_property hf
      rfl
    obtain ⟨rfl, rfl⟩ | ⟨rfl, rfl⟩ := h
    · rw [isEverything_conjunction, Predicate.verdict]
      simpa [List.all_map, Function.comp_def] using congrArg (List.all · id) hparts
    · rw [isEverything_disjunction, Predicate.verdict]
      simpa [List.any_map, Function.comp_def] using congrArg (List.any · id) hparts

/-- A tree's filter is what is left of its parts' filters. -/
theorem leftOf_ofNode {connective : Connective} {parts : List Filter} {f : Filter}
    (h : connective = .all ∧ f = conjunction parts ∨ connective = .any ∧ f = disjunction parts) :
    ∃ operator, LeftOf operator parts f := by
  obtain ⟨-, rfl⟩ | ⟨-, rfl⟩ := h
  · exact ⟨.and, leftOf_conjunction parts⟩
  · exact ⟨.or, leftOf_disjunction parts⟩

/-- The filter of a tree is a constant or folded. -/
theorem folded_ofNode {p : Predicate} {f : Filter} (h : ofNode c p = .ok f) (hnothing : f ≠ .nothing)
    (heverything : f ≠ .everything) : f.Folded := by
  induction p using Predicate.induction generalizing f with
  | node connective conditions children ih =>
    obtain ⟨conditionFilters, childFilters, hconditions, hchildren, h⟩ := ofNode_eq_ok h
    obtain ⟨operator, hleft⟩ := leftOf_ofNode h
    refine hleft.folded (List.forall_mem_append.mpr ⟨?_, ?_⟩) hnothing heverything
    · refine forall_mem_of_forall₂ (Result.mapM_eq_ok.mp hconditions) fun condition _ f hf _ _ => ?_
      obtain ⟨v, rfl⟩ := ofCondition_eq_property hf
      exact .property
    · exact forall_mem_of_forall₂ (Result.mapM_eq_ok.mp hchildren) fun child hchild f hf =>
        ih child hchild hf

/-- The comparisons of parts' filters are among those of the parts, in order, if each filter's are
among those of its part. -/
theorem flatMap_comparisons_sublist {α : Type} {translate : α → Except Error Filter} {parts : List α}
    {filters : List Filter} {of : α → List Filter} (hfilters : parts.mapM translate = .ok filters)
    (h : ∀ part ∈ parts, ∀ f, translate part = .ok f → f.comparisons.Sublist (of part)) :
    (filters.flatMap comparisons).Sublist (parts.flatMap of) := by
  have hrelated := (List.forall₂_and_left _ _).mpr ⟨h, Result.mapM_eq_ok.mp hfilters⟩
  clear h hfilters
  induction hrelated with
  | nil => exact List.nil_sublist _
  | cons hpart _ ih =>
    obtain ⟨hsublist, htranslate⟩ := hpart
    exact (hsublist _ htranslate).append ih

/-- The comparisons in the filter of a tree are those of some of its conditions, in their order. -/
theorem comparisons_ofNode {p : Predicate} {f : Filter} (h : ofNode c p = .ok f) :
    f.comparisons.Sublist (p.allConditions.filterMap fun condition =>
      (ofCondition c condition).toOption) := by
  induction p using Predicate.induction generalizing f with
  | node connective conditions children ih =>
    obtain ⟨conditionFilters, childFilters, hconditions, hchildren, h⟩ := ofNode_eq_ok h
    obtain ⟨operator, hleft⟩ := leftOf_ofNode h
    refine hleft.comparisons_sublist.trans ?_
    rw [List.flatMap_append, Predicate.allConditions, List.filterMap_append,
      Predicate.conditionsOfAll_eq_flatMap, List.filterMap_flatMap, List.filterMap_eq_flatMap_toList]
    refine .append (flatMap_comparisons_sublist hconditions fun condition _ f hf => ?_)
      (flatMap_comparisons_sublist hchildren fun child hchild f hf => ih child hchild hf)
    obtain ⟨v, rfl⟩ := ofCondition_eq_property hf
    rw [hf]
    exact List.Sublist.refl _

/-- The values of a predicate that is translated fit their columns. -/
theorem exists_convert_of_ofPredicate {p : Predicate} {f : Filter} (h : ofPredicate c p = .ok f) :
    ∀ condition ∈ p.allConditions, ∃ v, c.convert condition = .ok v := by
  obtain ⟨hempty, -⟩ | ⟨-, -, hnode⟩ := ofPredicate_eq_ok.mp h
  · rw [Predicate.allConditions_of_isEmpty hempty]
    exact List.forall_mem_nil _
  · exact exists_convert_of_ofNode hnode

/-- A comparison in the filter of a predicate is that of one of its conditions. -/
theorem exists_of_mem_comparisons {p : Predicate} {f part : Filter} (h : ofPredicate c p = .ok f)
    (hpart : part ∈ f.comparisons) : ∃ condition ∈ p.allConditions, ∃ v, c.convert condition = .ok v ∧
      part = .property condition.column (.known condition.operator) v := by
  obtain ⟨-, rfl⟩ | ⟨-, -, hnode⟩ := ofPredicate_eq_ok.mp h
  · cases hpart
  · have hmem := (comparisons_ofNode hnode).subset hpart
    obtain ⟨condition, hcondition, hfilter⟩ := List.mem_filterMap.mp hmem
    exact ⟨condition, hcondition, ofCondition_eq_ok.mp (Result.toOption_eq_some.mp hfilter)⟩

/-- Conditions whose values fit their columns: the filters of all of them are those that there
are. -/
theorem mapM_ofCondition_eq {conditions : List Condition}
    (h : ∀ condition ∈ conditions, ∃ v, c.convert condition = .ok v) :
    conditions.mapM (ofCondition c) =
      .ok (conditions.filterMap fun condition => (ofCondition c condition).toOption) := by
  induction conditions with
  | nil => rfl
  | cons condition rest ih =>
    obtain ⟨⟨v, hv⟩, hrest⟩ := List.forall_mem_cons.mp h
    obtain ⟨f, hf⟩ := exists_ofCondition hv
    rw [List.mapM_cons, hf, ih hrest, List.filterMap_cons_some (by rw [hf]; rfl)]
    rfl

end Filter

/-- A stream that is opened makes one request, for the first page. -/
theorem Stream.requests_open? {σ : Type} (b : Backend σ) (query : NativeQuery) {pageSize : Int}
    (hsize : 0 < pageSize) (w : σ) :
    (open? b.noting query pageSize (w, [])).2.2 =
      [(((init query pageSize.toNat).requestSize : Int), none)] := by
  rw [open?, if_neg (Int.not_le.mpr hsize), fetch]
  rcases hrun : b.runQuery query (init query pageSize.toNat).requestSize none w with ⟨_ | page, w'⟩
  all_goals simp [Backend.noting, Backend.keepNotes, init] at hrun ⊢; simp [hrun]

/-- Folding leaves no constant behind. The filter of a tree of known nodes, with parts, few enough
levels and values that fit their columns, is the one that nothing passes exactly if the tree is false
although each of its conditions is met, and the one that everything passes exactly if it is true
although none is. Any other filter has no constants in it and no composites of fewer than two
parts, and its comparisons are those of some of the conditions, in their order. So the backend is
not asked exactly if the tree is false whatever its conditions answer; else its first page is. -/
theorem Reader.fetchByQuery_folded {α : Type} (reader : Reader α) {p : Predicate} (hknown : p.Known)
    (hroot : p.isEmpty = false) (hheight : p.height ≤ maxPredicateDepth)
    (hvalues : ∀ condition ∈ p.allConditions, ∃ v, reader.conversion.convert condition = .ok v) :
    ∃ f, Filter.ofPredicate reader.conversion p = .ok f ∧
      (f = .nothing ↔ p.verdict (fun _ => true) = false) ∧
      (f = .everything ↔ p.verdict (fun _ => false) = true) ∧
      (f ≠ .nothing → f ≠ .everything → f.Folded ∧
        ∃ kept : List Condition, kept.Sublist p.allConditions ∧
          kept.mapM (Filter.ofCondition reader.conversion) = .ok f.comparisons) ∧
      ∀ {σ : Type} (b : Backend σ) (query : RecordQuery) (w : σ),
        ((∀ meets, p.verdict meets = false) →
          reader.fetchByQuery b ⟨query, p⟩ w = (.ok (.listed []), w)) ∧
        ((∃ meets, p.verdict meets = true) →
          (reader.fetchByQuery b.noting ⟨query, p⟩ (w, [])).2.2.map Prod.snd = [none]) := by
  obtain ⟨f, hf⟩ := Filter.exists_ofNode hknown hvalues
  have htranslated : Filter.ofPredicate reader.conversion p = .ok f :=
    Filter.ofPredicate_eq_ok.mpr (.inr ⟨hroot, Predicate.checkDepth_of_height_le hheight, hf⟩)
  have hnothing : f = .nothing ↔ p.verdict (fun _ => true) = false := by
    rw [← Filter.isNothing_iff, Filter.isNothing_ofNode hf, Bool.not_eq_true']
  refine ⟨f, htranslated, hnothing, ?_, fun hneither hneither' => ⟨?_, ?_⟩, fun b query w => ⟨?_, ?_⟩⟩
  · rw [← Filter.isEverything_iff, Filter.isEverything_ofNode hf]
  · exact Filter.folded_ofNode hf hneither hneither'
  · obtain ⟨kept, hkept, heq⟩ := List.sublist_filterMap_iff.mp (Filter.comparisons_ofNode hf)
    refine ⟨kept, hkept, ?_⟩
    rw [heq]
    exact Filter.mapM_ofCondition_eq fun condition hmem => hvalues condition (hkept.subset hmem)
  · intro hnever
    have hmatches : (reader.native ⟨query, p⟩ f).matchesNothing = true :=
      Filter.isNothing_iff.mpr (hnothing.mpr (hnever _))
    rw [fetchByQuery, nativeQuery_eq htranslated]
    simp only [hmatches, if_true]
  · rintro ⟨meets, hmeets⟩
    -- Answers that make the tree true do so although more conditions may be met.
    have hverdict : p.verdict (fun _ => true) = true :=
      Predicate.verdict_mono (fun _ _ => rfl) p hmeets
    have hmatches : (reader.native ⟨query, p⟩ f).matchesNothing = false :=
      Filter.isNothing_eq_false_iff.mpr fun h => by simp [hnothing.mp h] at hverdict
    have hopen := Stream.requests_open? b (reader.native ⟨query, p⟩ f)
      (Int.natCast_pos.mpr reader.config.pageSize_pos) w
    rw [fetchByQuery, nativeQuery_eq htranslated]
    simp only [hmatches, Bool.false_eq_true, if_false]
    rcases hopened : Stream.open? b.noting _ _ (w, []) with ⟨_ | s, w'⟩
    all_goals
      rw [hopened] at hopen
      exact congrArg (List.map Prod.snd) hopen

/-- An "or" over a condition, an empty "or" and an "and" with an empty "and" in it: both comparisons
are left, and the backend is asked for them. -/
theorem Reader.fetchByQuery_folded_or :
    let small : Condition := ⟨.text "size", .less, .integer 3⟩
    let named : Condition := ⟨.text "name", .equal, .text "a"⟩
    let p : Predicate :=
      .node .any [small] [.node .any [] [], .node .all [named] [.node .all [] []]]
    let layout : Layout :=
      ⟨"Row", [.ofField "size" .integer "size", .ofField "name" .string "name"], "id", none, by decide⟩
    let reader : Reader Record := ⟨.plain, .default, layout, .default⟩
    p.Known ∧ p.isEmpty = false ∧ p.height ≤ maxPredicateDepth ∧
      ∃ f, Filter.ofPredicate reader.conversion p = .ok f ∧ f.Folded ∧
        [small, named].mapM (Filter.ofCondition reader.conversion) = .ok f.comparisons ∧
        (reader.fetchByQuery Store.backend.noting ⟨{}, p⟩ (.ofRecords [], [])).2.2.map Prod.snd =
          [none] := by
  intro small named p layout reader
  have hknown : p.Known := by
    have hempty (connective : Connective) (h : ∀ typeName shown, connective ≠ .foreign typeName shown) :
        Predicate.Known (.node connective [] []) := .node h (List.forall_mem_nil _)
    have hchild : Predicate.Known (.node .all [named] [.node .all [] []]) :=
      .node nofun (List.forall_mem_singleton.mpr (hempty .all nofun))
    exact .node nofun (List.forall_mem_cons.mpr
      ⟨hempty .any nofun, List.forall_mem_singleton.mpr hchild⟩)
  have hvalues : ∀ condition ∈ p.allConditions, ∃ v, reader.conversion.convert condition = .ok v :=
    List.forall_mem_cons.mpr ⟨⟨_, rfl⟩, List.forall_mem_singleton.mpr ⟨_, rfl⟩⟩
  obtain ⟨f, hf, hnothing, heverything, hfolded, hrequests⟩ :=
    fetchByQuery_folded reader hknown rfl (by decide) hvalues
  -- The two conditions are left over, so the query is neither nothing nor everything.
  have hleft : f ≠ .nothing := fun h => absurd (hnothing.mp h) (by decide)
  have hleft' : f ≠ .everything := fun h => absurd (heverything.mp h) (by decide)
  obtain ⟨hfolded, -⟩ := hfolded hleft hleft'
  obtain rfl := Except.ok.inj (hf.symm.trans rfl)
  exact ⟨hknown, rfl, by decide, _, rfl, hfolded, rfl,
    (hrequests Store.backend {} (.ofRecords [])).2 ⟨fun _ => true, rfl⟩⟩

end RecordStore
