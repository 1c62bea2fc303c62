import RecordStore.Proofs.Predicate.Grammar

/-!
# Validation and construction

Validation collects the faults of a written predicate, construction refuses the first one and casts
values afterwards. The two walks meet the same faults (`Form.validate_eq_nil`), so that a form
without faults fails to be built only where a cast does (`Form.toPredicate_iff_validate`).
-/

namespace RecordStore

namespace Form

/-- A condition asks that its value be cast to the type of a name. -/
def AsksCast (d given target : Datum) : Prop :=
  ∃ entries, d = .dict entries ∧ Datum.lookup "value_type" entries = some target ∧
    valueOf entries = given

/-- A condition on the first levels of a written predicate. -/
inductive HasWithin (condition : Datum) : Nat → Datum → Prop
  | own {levels : Nat} {entries : List (Datum × Datum)} {params : List Datum}
      (listed : Lists entries "params" params) (mem : condition ∈ params) :
      HasWithin condition (levels + 1) (.dict entries)
  | child {levels : Nat} {entries : List (Datum × Datum)} {children : List Datum} {d : Datum}
      (listed : Lists entries "children" children) (mem : d ∈ children)
      (below : HasWithin condition levels d) : HasWithin condition (levels + 1) (.dict entries)

/-- Some condition on the first levels of a written predicate asks for a cast. -/
def AsksWithin (given target : Datum) (levels : Nat) (d : Datum) : Prop :=
  ∃ condition, HasWithin condition levels d ∧ AsksCast condition given target

variable {allowed : Option AllowedColumns} {path : String} {entries : List (Datum × Datum)}

/-! ## Faults -/

theorem columnFaults_eq_nil {column : Option Datum} :
    columnFaults allowed path column = .ok [] ↔ checkColumn allowed path column = .ok () := by
  unfold columnFaults checkColumn
  cases nonEmptyText? column with
  | none => exact iff_of_false nofun refuse_ne_ok
  | some name =>
    cases allowed with
    | none => exact iff_of_true rfl rfl
    | some columns =>
      dsimp only
      cases columns.permits name with
      | error e => exact iff_of_false nofun nofun
      | ok answer =>
        cases answer with
        | true => exact iff_of_true rfl rfl
        | false => exact iff_of_false nofun nofun

/-- There is no fault exactly if what is asked passes. -/
theorem faultUnless_eq_nil {passes : Bool} {given : Datum} {fault : FormFault} :
    faultUnless passes path given fault = .ok [] ↔ passes = true := by
  unfold faultUnless
  cases passes with
  | true => exact iff_of_true rfl rfl
  | false => cases given.isWritable <;> exact iff_of_false nofun nofun

/-- The faults of a condition: those of its operator, of its column and of the type it names. -/
theorem conditionFaults_dict :
    conditionFaults allowed path (.dict entries) =
      faultUnless (comparison? ((Datum.lookup "op" entries).getD .null)).isSome path
        ((Datum.lookup "op" entries).getD .null)
        (.unknownComparison ((Datum.lookup "op" entries).getD .null)) >>= fun ofOperator =>
      columnFaults allowed path (Datum.lookup "column" entries) >>= fun ofColumn =>
      namesCast ((Datum.lookup "value_type" entries).getD .null) >>= fun named =>
      faultUnless named path ((Datum.lookup "value_type" entries).getD .null)
        (.unknownValueType ((Datum.lookup "value_type" entries).getD .null)) >>= fun ofType =>
      .ok (ofOperator ++ ofColumn ++ ofType) :=
  rfl

/-- A condition has no faults exactly if it passes the check. -/
theorem conditionFaults_eq_nil {d : Datum} :
    conditionFaults allowed path d = .ok [] ↔ ConditionPasses allowed d := by
  cases d
  case dict entries =>
    simp only [conditionFaults_dict, Result.bind_eq_ok, Except.ok.injEq, List.append_eq_nil_iff]
    constructor
    · rintro ⟨_, hop, _, hcolumn, named, hnamed, _, htype, ⟨rfl, rfl⟩, rfl⟩
      obtain ⟨c, hc⟩ := Option.isSome_iff_exists.mp (faultUnless_eq_nil.mp hop)
      obtain rfl := faultUnless_eq_nil.mp htype
      exact ⟨entries, rfl, ⟨c, getD_eq_text.mp (comparison?_eq_some.mp hc)⟩,
        checkColumn_eq_ok.mp (columnFaults_eq_nil.mp hcolumn), namesCast_eq_ok.mp hnamed⟩
    · rintro ⟨_, ⟨⟩, ⟨c, hc⟩, hcolumn, hnamed⟩
      have hop := comparison?_eq_some.mpr (getD_eq_text.mpr hc)
      exact ⟨[], faultUnless_eq_nil.mpr (Option.isSome_iff_exists.mpr ⟨c, hop⟩), [],
        columnFaults_eq_nil.mpr (checkColumn_eq_ok.mpr hcolumn), true, namesCast_eq_ok.mpr hnamed, [],
        faultUnless_eq_nil.mpr rfl, ⟨rfl, rfl⟩, rfl⟩
  all_goals
    refine iff_of_false nofun ?_
    rintro ⟨_, ⟨⟩, -⟩

/-- Conditions without faults are those that pass. -/
theorem conditionsFaults_eq_nil {index : Nat} {params : List Datum} :
    conditionsFaults allowed path index params = .ok [] ↔ ∀ d ∈ params, ConditionPasses allowed d := by
  induction params generalizing index with
  | nil => exact iff_of_true rfl (List.forall_mem_nil _)
  | cons d rest ih =>
    rw [List.forall_mem_cons, ← conditionFaults_eq_nil, ← ih, conditionsFaults, Result.bind_eq_ok]
    constructor
    · rintro ⟨first, hfirst, h⟩
      obtain ⟨others, hothers, h⟩ := Result.bind_eq_ok.mp h
      obtain ⟨rfl, rfl⟩ := List.append_eq_nil_iff.mp (Except.ok.inj h)
      exact ⟨hfirst, hothers⟩
    · rintro ⟨hfirst, hrest⟩
      exact ⟨[], hfirst, Result.bind_eq_ok.mpr ⟨[], hrest, rfl⟩⟩

theorem operatorFaults_eq_nil {operator : Option Datum} :
    operatorFaults path operator = [] ↔ checkOperator path operator = .ok () := by
  unfold operatorFaults checkOperator
  cases nonEmptyText? operator with
  | none => exact iff_of_false nofun refuse_ne_ok
  | some name =>
    dsimp only
    split
    · exact iff_of_true rfl rfl
    · exact iff_of_false nofun nofun

/-- The faults of the items of a list of a node. A missing list has none; anything else than a list
is a fault of its own. -/
def listFaults (path : String) (fault : FormFault) (step : List Datum → Except Error Faults)
    (d : Option Datum) : Except Error Faults :=
  match list? d with
  | none => .ok [(path, fault)]
  | some items => step items

/-- A list without faults is a list, and nothing is wrong with its items. -/
theorem listFaults_eq_nil {key : String} {fault : FormFault}
    {step : List Datum → Except Error Faults} :
    listFaults path fault step (Datum.lookup key entries) = .ok [] ↔
      ∃ items, Lists entries key items ∧ step items = .ok [] := by
  simp only [← list?_eq_some, listFaults]
  cases list? (Datum.lookup key entries) with
  | none => exact iff_of_false nofun nofun
  | some items => simp

/-- The faults of a node: those of its operator, of its conditions and of its children. -/
theorem nodeFaults_dict {levels : Nat} :
    nodeFaults allowed (levels + 1) path (.dict entries) =
      listFaults path .paramsNotList (conditionsFaults allowed path 0) (Datum.lookup "params" entries)
        >>= fun ofConditions =>
      listFaults path .childrenNotList (fun children => do
        return (← children.zipIdx.mapM fun entry =>
          nodeFaults allowed levels (itemPath path "children" entry.2) entry.1).flatten)
        (Datum.lookup "children" entries) >>= fun ofChildren =>
      .ok (operatorFaults path (Datum.lookup "op" entries) ++ ofConditions ++ ofChildren) := by
  rw [nodeFaults]
  unfold listFaults
  cases list? (Datum.lookup "params" entries) <;> cases list? (Datum.lookup "children" entries) <;>
    simp only [bind_assoc, pure_bind] <;> rfl

/-- Parts have no faults together exactly if none of them has any. -/
theorem flatten_mapM_eq_nil {α : Type} {step : α → Except Error Faults} {parts : List α} :
    (do return (← parts.mapM step).flatten) = (.ok [] : Except Error Faults) ↔
      ∀ part ∈ parts, step part = .ok [] := by
  rw [Result.bind_eq_ok]
  constructor
  · rintro ⟨found, hfound, hnone⟩
    have hempty := List.flatten_eq_nil_iff.mp (Except.ok.inj hnone)
    exact forall_mem_of_forall₂ (Result.mapM_eq_ok.mp hfound).flip
      fun faults hmem part hpart => hempty faults hmem ▸ hpart
  · intro h
    refine ⟨parts.map fun _ => [], Result.mapM_eq_ok.mpr ?_, ?_⟩
    · rwa [List.forall₂_map_right_iff, List.forall₂_same]
    · exact congrArg Except.ok (List.flatten_eq_nil_iff.mpr (by simp))

/-- A node has no faults exactly if its operator, its conditions and its children have none. -/
theorem nodeFaults_dict_eq_nil {levels : Nat} :
    nodeFaults allowed (levels + 1) path (.dict entries) = .ok [] ↔
      checkOperator path (Datum.lookup "op" entries) = .ok () ∧
      (∃ params, Lists entries "params" params ∧ ∀ d ∈ params, ConditionPasses allowed d) ∧
      ∃ children, Lists entries "children" children ∧ ∀ entry ∈ children.zipIdx,
        nodeFaults allowed levels (itemPath path "children" entry.2) entry.1 = .ok [] := by
  -- Both lists are asked for in the same way, whatever fault is reported if one is missing.
  have hown (fault : FormFault) :
      listFaults path fault (conditionsFaults allowed path 0) (Datum.lookup "params" entries) = .ok [] ↔
        ∃ params, Lists entries "params" params ∧ ∀ d ∈ params, ConditionPasses allowed d := by
    simp only [listFaults_eq_nil, conditionsFaults_eq_nil]
  have hbelow (fault : FormFault) (step : Datum × Nat → Except Error Faults) :
      listFaults path fault (fun children => do return (← children.zipIdx.mapM step).flatten)
          (Datum.lookup "children" entries) = .ok [] ↔
        ∃ children, Lists entries "children" children ∧
          ∀ entry ∈ children.zipIdx, step entry = .ok [] := by
    simp only [listFaults_eq_nil, flatten_mapM_eq_nil]
  rw [← operatorFaults_eq_nil, ← hown .paramsNotList, ← hbelow .childrenNotList, nodeFaults_dict,
    Result.bind_eq_ok]
  constructor
  · rintro ⟨ofConditions, hconditions, h⟩
    obtain ⟨ofChildren, hchildren, h⟩ := Result.bind_eq_ok.mp h
    obtain ⟨hfirst, rfl⟩ := List.append_eq_nil_iff.mp (Except.ok.inj h)
    obtain ⟨hop, rfl⟩ := List.append_eq_nil_iff.mp hfirst
    exact ⟨hop, hconditions, hchildren⟩
  · rintro ⟨hop, hconditions, hchildren⟩
    exact ⟨[], hconditions, Result.bind_eq_ok.mpr ⟨[], hchildren, by rw [hop]; rfl⟩⟩

/-- A node has no faults exactly if it passes the check. -/
theorem nodeFaults_eq_nil {levels : Nat} {d : Datum} :
    nodeFaults allowed levels path d = .ok [] ↔ checkNode allowed levels path d = .ok () := by
  induction levels generalizing path d with
  | zero => exact iff_of_false (by cases d <;> nofun) not_node_of_levels
  | succ levels ih =>
    cases d
    case dict entries => simp only [nodeFaults_dict_eq_nil, checkNode_dict_eq_ok, ih]
    all_goals exact iff_of_false nofun nofun

/-- Validation reports nothing exactly if the form passes the check. -/
theorem validate_eq_nil {d : Datum} : validate allowed d = .ok [] ↔ check allowed d = .ok () := by
  have hfaults : validate allowed d = .ok [] ↔ faults allowed d = .ok [] := by
    rw [validate, Result.bind_eq_ok]
    constructor
    · rintro ⟨found, hfound, hnone⟩
      rwa [List.map_eq_nil_iff.mp (Except.ok.inj hnone)] at hfound
    · exact fun h => ⟨[], h, rfl⟩
  exact hfaults.trans nodeFaults_eq_nil

/-! ## Casts -/

/-- A condition that passes the check fails to be built only if its value cannot be cast. -/
theorem asksCast_of_buildCondition {d : Datum} (h : ConditionPasses allowed d) {e : Error}
    (hbuild : buildCondition d = .error e) :
    ∃ given target, AsksCast d given target ∧ given.cast target = .error e := by
  obtain ⟨entries, rfl, _, _, -, -, hcondition⟩ := buildCondition_of_passes h
  rw [hcondition, Result.map_eq_error, castValue] at hbuild
  cases htarget : Datum.lookup "value_type" entries with
  | none =>
    rw [htarget] at hbuild
    cases hbuild
  | some target =>
    rw [htarget] at hbuild
    exact ⟨_, target, ⟨entries, rfl, htarget, rfl⟩, hbuild⟩

/-- A form that passes the check fails to be built only if the value of some condition cannot be
cast. -/
theorem asksWithin_of_buildNode {levels : Nat} {d : Datum}
    (h : checkNode allowed levels path d = .ok ()) {e : Error} (hbuild : buildNode levels d = .error e) :
    ∃ given target, AsksWithin given target levels d ∧ given.cast target = .error e := by
  induction levels generalizing path d with
  | zero => exact absurd h not_node_of_levels
  | succ levels ih =>
    cases d
    case dict entries =>
      obtain ⟨hop, ⟨params, hparams, hpass⟩, items, hitems, hall⟩ := checkNode_dict_eq_ok.mp h
      obtain ⟨name, l, hname, hcase⟩ := checkOperator_eq_ok.mp hop
      rw [buildNode_dict hname hcase hparams hitems, Result.bind_eq_error] at hbuild
      -- The node has been checked, so only a cast can fail, its own or one below.
      obtain hconditions | ⟨conditions, -, hbuild⟩ := hbuild
      · obtain ⟨d, hmem, hd⟩ := Result.exists_of_mapM_eq_error hconditions
        obtain ⟨given, target, hasks, hcast⟩ := asksCast_of_buildCondition (hpass d hmem) hd
        exact ⟨given, target, ⟨d, .own hparams hmem, hasks⟩, hcast⟩
      · obtain hchildren | ⟨_, -, ⟨⟩⟩ := Result.bind_eq_error.mp hbuild
        obtain ⟨d, hmem, hd⟩ := Result.exists_of_mapM_eq_error hchildren
        have hcheck := checkNode_zipIdx_iff.mp hall d hmem
        obtain ⟨given, target, ⟨condition, hwithin, hasks⟩, hcast⟩ := ih hcheck hd
        exact ⟨given, target, ⟨condition, .child hitems hmem hwithin, hasks⟩, hcast⟩
    all_goals cases h

/-- The values of the conditions of the grammar can be cast. -/
theorem IsNode.castable {levels depth : Nat} {d given target : Datum} (h : IsNode allowed depth d)
    (hasks : AsksWithin given target levels d) : ∃ operand, given.cast target = .ok operand := by
  obtain ⟨condition, hwithin, hcast⟩ := hasks
  induction hwithin generalizing depth with
  | own hlisted hmem =>
    obtain @⟨_, _, _, _, _, _, _, _, _, hparams, hvalid, _, _⟩ := h
    obtain rfl := hparams.unique hlisted
    obtain ⟨inner, rfl, hcondition⟩ := hvalid _ hmem
    obtain ⟨_, ⟨⟩, htarget, rfl⟩ := hcast
    exact hcondition.castable _ htarget
  | child hlisted hmem _ ih =>
    obtain @⟨_, _, _, _, _, _, _, _, _, _, _, hitems, hnodes⟩ := h
    obtain rfl := hitems.unique hlisted
    exact ih (hnodes _ hmem)

/-- A form is built exactly if validation reports nothing and the values of its conditions can be
cast to the types that they name. If validation reports nothing, but the form is not built, then
what fails is such a cast. -/
theorem toPredicate_iff_validate (allowed : Option AllowedColumns) (d : Datum) :
    ((∃ p, toPredicate allowed d = .ok p) ↔
      validate allowed d = .ok [] ∧ ∀ given target, AsksWithin given target maxPredicateDepth d →
        ∃ operand, given.cast target = .ok operand) ∧
      ∀ e, validate allowed d = .ok [] → toPredicate allowed d = .error e →
        ∃ given target, AsksWithin given target maxPredicateDepth d ∧ given.cast target = .error e := by
  -- What passes validation is built, but for the casts.
  have hbuild {e : Error} (hcheck : check allowed d = .ok ()) (h : toPredicate allowed d = .error e) :
      ∃ given target, AsksWithin given target maxPredicateDepth d ∧ given.cast target = .error e := by
    rw [toPredicate, hcheck] at h
    exact asksWithin_of_buildNode hcheck h
  simp only [validate_eq_nil]
  refine ⟨⟨?_, ?_⟩, fun e => hbuild⟩
  · rintro ⟨p, hp⟩
    obtain ⟨_, hcheck, hbuilt⟩ := Result.bind_eq_ok.mp hp
    obtain ⟨hnode, -⟩ := (node_iff (Nat.add_comm 1 maxPredicateDepth)).mp ⟨hcheck, hbuilt⟩
    exact ⟨hcheck, fun given target => hnode.castable⟩
  · rintro ⟨hcheck, hcasts⟩
    cases h : toPredicate allowed d with
    | ok p => exact ⟨p, rfl⟩
    | error e =>
      obtain ⟨given, target, hasks, hfails⟩ := hbuild hcheck h
      obtain ⟨operand, hoperand⟩ := hcasts given target hasks
      rw [hoperand] at hfails
      cases hfails

/-- Two forms without faults that are not built: one names null as a type, the other one holds a text
that writes no whole number. -/
theorem validate_passes_failing_casts :
    let form (value type : Json) : Datum := .ofJson <| .object [("op", .string "and"), ("params", .array
      [.object [("column", .string "n"), ("op", .string "="), ("value", value), ("value_type", type)]])]
    validate none (form (.integer 3) .null) = .ok [] ∧
      toPredicate none (form (.integer 3) .null) = .error (.query (.unknownCast .null) .null) ∧
      validate none (form (.string "abc") (.string "integer")) = .ok [] ∧
      toPredicate none (form (.string "abc") (.string "integer")) =
        .error (.query (.castFailed (.text "abc") "integer") .null) :=
  ⟨rfl, rfl, rfl, rfl⟩

end Form

end RecordStore
