import RecordStore.Proofs.Filter.Folding
import RecordStore.Proofs.Predicate.RoundTrip

/-!
# One limit of levels

Trees are refused for their levels in three places: where a predicate is prepared for matching, where
it is translated into a filter, and where its written form is read. The first two search a tree for its
deepest level, the third one counts levels on its way down. They refuse the same trees
(`Predicate.depth_limits_agree`): what else can go wrong is a value that does not fit its column.
-/

namespace RecordStore

/-! ## Written trees -/

namespace Form

/-- A condition on a column with a name passes as it is written. -/
theorem conditionPasses_toDatum {c : Condition} (h : c.IsNamed) : ConditionPasses none c.toDatum := by
  obtain ⟨name, hname, hne⟩ := h
  exact ⟨_, rfl, ⟨c.operator, rfl⟩, ⟨name, congrArg some hname, hne, nofun⟩, .inl rfl⟩

theorem checkOperator_name (path : String) (l : Logical) :
    checkOperator path (some (.text l.name)) = .ok () :=
  checkOperator_eq_ok.mpr ⟨l.name, l, rfl, anyCase_name l⟩

/-- The form of a tree whose columns are named is refused for its levels only. -/
theorem tooDeep_of_checkNode {p : Predicate} (hnamed : p.Everywhere Condition.IsNamed) {levels : Nat}
    {path : String} {e : Error} (h : checkNode none levels path p.toDatum = .error e) :
    ∃ place, e = .query (.form .tooDeep) (.text place) := by
  induction p using Predicate.induction generalizing levels path with
  | node connective conditions children ih =>
    obtain ⟨hown, hbelow⟩ := hnamed
    obtain ⟨entries, hentries, hparams, hitems⟩ := exists_entries_toDatum connective conditions children
    have hop : Datum.lookup "op" entries = some (.text connective.logical.name) := by
      obtain rfl := Datum.dict.inj hentries
      rfl
    rw [hentries] at h
    cases levels with
    | zero =>
      cases h
      exact ⟨path, rfl⟩
    | succ levels =>
      rw [checkNode_dict, hop, checkOperator_name, list?_eq_some.mpr hparams, list?_eq_some.mpr hitems] at h
      -- The operator and the conditions pass, so that one of the children does not.
      have hconditions : checkConditions none path 0 (conditions.map Condition.toDatum) = .ok () :=
        checkConditions_eq_ok.mpr (List.forall_mem_map.mpr fun c hc => conditionPasses_toDatum (hown c hc))
      obtain ⟨⟨⟩⟩ | ⟨_, -, h⟩ := Result.bind_eq_error.mp h
      obtain hfails | ⟨_, -, h⟩ := Result.bind_eq_error.mp h
      · cases hconditions.symm.trans hfails
      · obtain ⟨entry, hentry, hfails⟩ := Result.exists_of_forM_eq_error h
        obtain ⟨child, hchild, hform⟩ := List.mem_map.mp (List.fst_mem_of_mem_zipIdx hentry)
        rw [← hform] at hfails
        exact ih child hchild (hbelow child hchild) hfails

/-- The form of a tree that is higher than allowed is refused for its levels, if its columns are
named. -/
theorem toPredicate_of_tooHigh {p : Predicate} (hnamed : p.Everywhere Condition.IsNamed)
    (h : maxPredicateDepth < p.height) :
    ∃ place, toPredicate none p.toDatum = .error (.query (.form .tooDeep) (.text place)) := by
  cases hcheck : check none p.toDatum with
  | ok _ => exact absurd (height_le_of_checkNode hcheck) (Nat.not_le.mpr h)
  | error e =>
    obtain ⟨place, rfl⟩ := tooDeep_of_checkNode hnamed hcheck
    exact ⟨place, Result.bind_eq_error.mpr (.inl hcheck)⟩

end Form

/-! ## Translated trees -/

/-- A condition is not translated if its value does not convert. -/
theorem Filter.convert_of_ofCondition {c : Conversion} {condition : Condition} {e : Error}
    (h : ofCondition c condition = .error e) : c.convert condition = .error e := by
  obtain hconvert | ⟨_, -, ⟨⟩⟩ := Result.bind_eq_error.mp h
  exact hconvert

/-- A tree of logical nodes fails to be translated only if the value of some condition does not fit its
column. -/
theorem Filter.exists_of_ofNode_eq_error {c : Conversion} {p : Predicate} (hlogical : p.IsLogical)
    {e : Error} (h : ofNode c p = .error e) :
    ∃ condition ∈ p.allConditions, c.convert condition = .error e := by
  induction hlogical with
  | @node logical conditions children _ ih =>
    rw [Predicate.allConditions, Predicate.conditionsOfAll_eq_flatMap]
    obtain hconditions | ⟨_, -, h⟩ := Result.bind_eq_error.mp h
    · obtain ⟨condition, hmem, hfails⟩ := Result.exists_of_mapM_eq_error hconditions
      exact ⟨condition, List.mem_append_left _ hmem, convert_of_ofCondition hfails⟩
    · obtain hchildren | ⟨_, -, h⟩ := Result.bind_eq_error.mp h
      · rw [ofNodes_eq_mapM] at hchildren
        obtain ⟨child, hchild, hfails⟩ := Result.exists_of_mapM_eq_error hchildren
        obtain ⟨condition, hmem, hconvert⟩ := ih child hchild hfails
        exact ⟨condition, List.mem_append_right _ (List.mem_flatMap.mpr ⟨child, hchild, hmem⟩), hconvert⟩
      · cases logical <;> cases h

namespace Predicate

theorem height_of_isEmpty {p : Predicate} (h : p.isEmpty = true) : p.height = 1 := by
  rw [eq_of_isEmpty h]
  rfl

/-- All limits of levels are one. The search for the deepest level of a tree, whatever its shape and its
nodes, ends after no more visits than there are nodes; what it finds is the height of the tree, or one
level more than allowed if that is less, so that the check of the depth refuses exactly the trees that
are higher than allowed. A tree of logical nodes with named columns that is higher than allowed is
refused for that when it is prepared, when it is translated and when its written form is read. If it is
not higher, it is prepared, its form is read as the tree, and its translation fails only where the value
of a condition does not fit its column. -/
theorem depth_limits_agree (p : Predicate) :
    (∃ visits ≤ p.size, Search 0 [(p, 1)] visits p.depth) ∧
      p.depth = min p.height (maxPredicateDepth + 1) ∧
      p.checkDepth =
        (if maxPredicateDepth < p.height then .error (.query .treeTooDeep .null) else .ok ()) ∧
      (p.IsLogical → p.Everywhere Condition.IsNamed → ∀ c : Conversion,
        if maxPredicateDepth < p.height then
          Matcher.prepare p c = .error (.query .treeTooDeep .null) ∧
          Filter.ofPredicate c p = .error (.query .treeTooDeep .null) ∧
          ∃ place, Form.toPredicate none p.toDatum = .error (.query (.form .tooDeep) (.text place))
        else
          Matcher.prepare p c = .ok ⟨c, .ofPredicate p⟩ ∧
          (∀ e, Filter.ofPredicate c p = .error e →
            ∃ condition ∈ p.allConditions, c.convert condition = .error e) ∧
          Form.toPredicate none p.toDatum = .ok p) := by
  refine ⟨?_, p.depth_eq, p.checkDepth_eq, fun hlogical hnamed c => ?_⟩
  · rw [depth_eq]
    exact p.exists_search_root
  split
  · next hhigh =>
    have hrefused : p.checkDepth = .error (.query .treeTooDeep .null) := by
      rw [checkDepth_eq, if_pos hhigh]
    -- A tree that is too high has a child or a condition, and is not passed over as empty.
    have hroot : p.isEmpty = false := by
      refine Bool.eq_false_iff.mpr fun hempty => ?_
      rw [height_of_isEmpty hempty] at hhigh
      exact absurd hhigh (by decide)
    refine ⟨?_, ?_, Form.toPredicate_of_tooHigh hnamed hhigh⟩
    · rw [Matcher.prepare, hrefused]
      rfl
    · rw [Filter.ofPredicate, hroot, hrefused]
      rfl
  · next hlow =>
    rw [Nat.not_lt] at hlow
    have hadmitted := checkDepth_of_height_le hlow
    refine ⟨Matcher.prepare_eq_ok.mpr ⟨hadmitted, rfl⟩, fun e he => ?_, ?_⟩
    · rw [Filter.ofPredicate, hadmitted] at he
      cases hempty : p.isEmpty with
      | true =>
        rw [hempty] at he
        cases he
      | false =>
        rw [hempty] at he
        exact Filter.exists_of_ofNode_eq_error hlogical he
    · exact Form.toPredicate_of_height_le hlogical hnamed hlow

/-- Nodes with a condition each, inside each other: 32 levels are admitted everywhere, and 33 are
refused everywhere. -/
theorem depth_limits_agree_chain :
    let chain (levels : Nat) : Predicate :=
      (fun p => .node .any [⟨.text "a", .equal, .null⟩] [p])^[levels] .everything
    let c : Conversion := ⟨.default, none⟩
    ((chain 31).height = maxPredicateDepth ∧ Matcher.prepare (chain 31) c = .ok ⟨c, .ofPredicate (chain 31)⟩ ∧
        Form.toPredicate none (chain 31).toDatum = .ok (chain 31)) ∧
      (chain 32).IsLogical ∧ (chain 32).Everywhere Condition.IsNamed ∧
      maxPredicateDepth < (chain 32).height ∧
      Matcher.prepare (chain 32) c = .error (.query .treeTooDeep .null) ∧
      Filter.ofPredicate c (chain 32) = .error (.query .treeTooDeep .null) ∧
      ∃ place, Form.toPredicate none (chain 32).toDatum = .error (.query (.form .tooDeep) (.text place)) := by
  intro chain c
  -- The chain grows at its root, so inductions go along its levels.
  have hsucc (levels : Nat) :
      chain (levels + 1) = .node .any [⟨.text "a", .equal, .null⟩] [chain levels] :=
    Function.iterate_succ_apply' _ _ _
  have hlogical (levels : Nat) : (chain levels).IsLogical := by
    induction levels with
    | zero => exact .node .and (List.forall_mem_nil _)
    | succ levels ih => exact hsucc levels ▸ .node .or (List.forall_mem_singleton.mpr ih)
  have hnamed (levels : Nat) : (chain levels).Everywhere Condition.IsNamed := by
    induction levels with
    | zero => exact .node (List.forall_mem_nil _) (List.forall_mem_nil _)
    | succ levels ih =>
      have hcolumn : Condition.IsNamed ⟨.text "a", .equal, .null⟩ := ⟨"a", rfl, by decide⟩
      exact hsucc levels ▸ .node (List.forall_mem_singleton.mpr hcolumn) (List.forall_mem_singleton.mpr ih)
  have hlow : (chain 31).height = maxPredicateDepth := by decide +kernel
  have hhigh : maxPredicateDepth < (chain 32).height := by decide +kernel
  -- From here on the trees are not computed again.
  clear_value chain
  have hadmitted := (depth_limits_agree (chain 31)).2.2.2 (hlogical 31) (hnamed 31) c
  have hrefused := (depth_limits_agree (chain 32)).2.2.2 (hlogical 32) (hnamed 32) c
  rw [if_neg (Nat.not_lt.mpr (Nat.le_of_eq hlow))] at hadmitted
  rw [if_pos hhigh] at hrefused
  exact ⟨⟨hlow, hadmitted.1, hadmitted.2.2⟩, hlogical 32, hnamed 32, hhigh, hrefused⟩

end Predicate

end RecordStore
