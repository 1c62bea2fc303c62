import RecordStore.Proofs.Predicate.Errors

/-!
# The first fault

The check of a written predicate stops at the first fault, validation patches the faulty part and
goes on. Both meet the faults in one order: where validation has an answer, the check refuses what
comes first in it (`Form.checkNode_eq_refuseFirst`), and so does construction
(`Form.toPredicate_of_faults`).
-/

namespace RecordStore

namespace Form

variable {allowed : Option AllowedColumns} {path : String} {entries : List (Datum × Datum)}

/-- The error of a fault. Unknown operators have one of their own, with those that are known. -/
def refusal (path : String) : FormFault → Error
  | .unknownLogical name => .unknownOperator (.text name) Logical.names (.text path)
  | .unknownComparison given => .unknownOperator given sortedSymbols (.text path)
  | fault => .query (.form fault) (.text path)

/-- A check that stops at the first of some faults. -/
def refuseFirst : Faults → Except Error Unit
  | [] => .ok ()
  | (path, fault) :: _ => .error (refusal path fault)

/-- A refusal is a query error. -/
theorem isQueryError_refusal (path : String) (fault : FormFault) :
    (refusal path fault).isQueryError = true := by
  cases fault <;> rfl

/-- The first of two lists of faults is the first of the one, or of the other if there is none. -/
theorem refuseFirst_append (faults others : Faults) :
    refuseFirst (faults ++ others) = refuseFirst faults >>= fun _ => refuseFirst others := by
  cases faults <;> rfl

/-! ## Conditions -/

theorem checkOperator_eq_refuseFirst (path : String) (operator : Option Datum) :
    checkOperator path operator = refuseFirst (operatorFaults path operator) := by
  unfold checkOperator operatorFaults
  cases nonEmptyText? operator with
  | none => rfl
  | some name =>
    dsimp only
    split <;> rfl

theorem checkColumn_eq_refuseFirst {column : Option Datum} {found : Faults}
    (h : columnFaults allowed path column = .ok found) :
    checkColumn allowed path column = refuseFirst found := by
  unfold columnFaults at h
  unfold checkColumn
  split at h
  · cases h
    rfl
  · cases h
    rfl
  · next name columns _ =>
    obtain ⟨permitted, hpermits, h⟩ := Result.bind_eq_ok.mp h
    rw [hpermits]
    cases permitted <;> cases h <;> rfl

/-- A fault that was found is that of a datum that can be written. -/
theorem faultUnless_false {given : Datum} {fault : FormFault} {found : Faults}
    (h : faultUnless false path given fault = .ok found) :
    given.isWritable = true ∧ found = [(path, fault)] := by
  unfold faultUnless at h
  cases hw : given.isWritable with
  | true =>
    rw [hw] at h
    exact ⟨rfl, (Except.ok.inj h).symm⟩
  | false =>
    rw [hw] at h
    cases h

/-- The check of a condition refuses its first fault. -/
theorem checkCondition_eq_refuseFirst {d : Datum} {found : Faults}
    (h : conditionFaults allowed path d = .ok found) :
    checkCondition allowed path d = refuseFirst found := by
  cases d
  case dict entries =>
    rw [conditionFaults_dict] at h
    obtain ⟨ofOperator, hoperator, h⟩ := Result.bind_eq_ok.mp h
    obtain ⟨ofColumn, hcolumn, h⟩ := Result.bind_eq_ok.mp h
    obtain ⟨named, hnamed, h⟩ := Result.bind_eq_ok.mp h
    obtain ⟨ofType, htype, h⟩ := Result.bind_eq_ok.mp h
    obtain rfl := Except.ok.inj h
    rw [refuseFirst_append, refuseFirst_append, ← checkColumn_eq_refuseFirst hcolumn, checkCondition]
    cases hop : comparison? ((Datum.lookup "op" entries).getD .null) with
    | none =>
      rw [hop] at hoperator
      obtain ⟨hw, rfl⟩ := faultUnless_false hoperator
      simp only [hw]
      rfl
    | some operator =>
      -- The operator passes, and what is left is the column and the type.
      rw [hop] at hoperator
      obtain rfl := Except.ok.inj hoperator
      simp only [hnamed]
      cases checkColumn allowed path (Datum.lookup "column" entries) with
      | error e => rfl
      | ok _ =>
        cases named with
        | true =>
          obtain rfl := Except.ok.inj htype
          rfl
        | false =>
          obtain ⟨hw, rfl⟩ := faultUnless_false htype
          simp only [hw]
          rfl
  all_goals
    cases h
    rfl

/-- The check of conditions refuses their first fault. -/
theorem checkConditions_eq_refuseFirst {index : Nat} {params : List Datum} {found : Faults}
    (h : conditionsFaults allowed path index params = .ok found) :
    checkConditions allowed path index params = refuseFirst found := by
  induction params generalizing index found with
  | nil =>
    cases h
    rfl
  | cons d rest ih =>
    obtain ⟨first, hfirst, h⟩ := Result.bind_eq_ok.mp h
    obtain ⟨others, hothers, h⟩ := Result.bind_eq_ok.mp h
    obtain rfl := Except.ok.inj h
    rw [checkConditions, checkCondition_eq_refuseFirst hfirst, ih hothers, refuseFirst_append]

/-! ## Nodes -/

/-- Checks of parts, each of which stops at the first fault of its part, stop at the first fault of
all. -/
theorem forM_eq_refuseFirst {α : Type} {check : α → Except Error Unit} {step : α → Except Error Faults}
    {parts : List α} {found : List Faults} (hfound : parts.mapM step = .ok found)
    (h : ∀ part ∈ parts, ∀ faults, step part = .ok faults → check part = refuseFirst faults) :
    parts.forM check = refuseFirst found.flatten := by
  -- The induction is on the parts together with the faults that were found in each.
  have hrelated := (List.forall₂_and_left _ _).mpr ⟨h, Result.mapM_eq_ok.mp hfound⟩
  clear h hfound
  induction hrelated with
  | nil => rfl
  | @cons part faults rest others hpart _ ih =>
    obtain ⟨hcheck, hstep⟩ := hpart
    rw [List.flatten_cons, refuseFirst_append, ← ih, ← hcheck faults hstep]
    rfl

/-- The check of a list under a key stops at its first fault if the check of its items does. -/
theorem checkList_eq_refuseFirst {d : Option Datum} {fault : FormFault}
    {step : List Datum → Except Error Faults} {check : List Datum → Except Error Unit} {found : Faults}
    (hrefuse : refusal path fault = .query (.form fault) (.text path))
    (h : listFaults path fault step d = .ok found)
    (hstep : ∀ items, list? d = some items → step items = .ok found → check items = refuseFirst found) :
    (match list? d with
      | none => refuse path fault
      | some items => check items) = refuseFirst found := by
  unfold listFaults at h
  cases hitems : list? d with
  | none =>
    rw [hitems] at h
    cases h
    exact congrArg Except.error hrefuse.symm
  | some items =>
    rw [hitems] at h
    exact hstep items hitems h

/-- The check of a node refuses the first of the faults that validation finds in it. -/
theorem checkNode_eq_refuseFirst {levels : Nat} {d : Datum} {found : Faults}
    (h : nodeFaults allowed levels path d = .ok found) :
    checkNode allowed levels path d = refuseFirst found := by
  induction levels generalizing path d found with
  | zero =>
    -- Without a level left, a node and what is none have one fault each.
    cases d
    all_goals
      cases h
      rfl
  | succ levels ih =>
    cases d
    case dict entries =>
      rw [nodeFaults_dict] at h
      obtain ⟨ofConditions, hconditions, h⟩ := Result.bind_eq_ok.mp h
      obtain ⟨ofChildren, hchildren, h⟩ := Result.bind_eq_ok.mp h
      obtain rfl := Except.ok.inj h
      -- Both look at the operator, the conditions and the children, in this order.
      rw [checkNode_dict, checkOperator_eq_refuseFirst, refuseFirst_append, refuseFirst_append, bind_assoc]
      refine congrArg _ (funext fun _ => congrArg₂ (· >>= ·) ?_ (funext fun _ => ?_))
      · exact checkList_eq_refuseFirst rfl hconditions fun _ _ => checkConditions_eq_refuseFirst
      · refine checkList_eq_refuseFirst rfl hchildren fun children _ hstep => ?_
        obtain ⟨ofEach, heach, hflat⟩ := Result.bind_eq_ok.mp hstep
        obtain rfl := Except.ok.inj hflat
        exact forM_eq_refuseFirst heach fun entry _ faults => ih
    all_goals
      cases h
      rfl

/-! ## Forms -/

/-- Validation and construction meet the same first fault. Where columns can be asked for, validation has
an answer exactly if what conditions give as types can be looked up, and what they give as operators and
types can be written, as messages show it. If it finds faults, construction is
refused for the first of them, at its path and in its words, or as an unknown operator that is named;
if it finds none, construction fails only where the value of a condition that names a type cannot be
cast. -/
theorem toPredicate_of_faults (allowed : Option AllowedColumns) (d : Datum) :
    (AnswersNames allowed → ((∃ found, faults allowed d = .ok found) ↔
        (∀ given target, AsksWithin given target maxPredicateDepth d → target.checkHashable = .ok ()) ∧
          ∀ shown, ShowsWithin shown maxPredicateDepth d → shown.isWritable = true)) ∧
      ∀ found, faults allowed d = .ok found →
        validate allowed d = .ok (found.map fun (path, fault) => path ++ ": " ++ fault.message) ∧
        match found with
        | [] => ∀ e, toPredicate allowed d = .error e → ∃ given target,
          AsksWithin given target maxPredicateDepth d ∧ given.cast target = .error e
        | (path, fault) :: _ => ∃ e, toPredicate allowed d = .error e ∧ e.isQueryError = true ∧
          match fault with
          | .unknownLogical name => e = .unknownOperator (.text name) Logical.names (.text path)
          | .unknownComparison given => e = .unknownOperator given sortedSymbols (.text path)
          | fault => e = .query (.form fault) (.text path) ∧ e.message = fault.message := by
  refine ⟨fun hanswers => faults_answers_iff hanswers, fun found hfound => ⟨?_, ?_⟩⟩
  · rw [validate, hfound]
    rfl
  · have hcheck : check allowed d = refuseFirst found := checkNode_eq_refuseFirst hfound
    rcases found with _ | ⟨⟨path, fault⟩, rest⟩
    · intro e he
      -- The check passes, and only building can fail.
      rw [toPredicate, hcheck] at he
      exact asksWithin_of_buildNode hcheck he
    · refine ⟨refusal path fault, ?_, isQueryError_refusal path fault, ?_⟩
      · rw [toPredicate, hcheck]
        rfl
      · cases fault <;> first | rfl | exact ⟨rfl, rfl⟩

/-- A form with an unknown operator, a condition with two faults and children that are no list: the
operator is the first fault. -/
theorem toPredicate_of_faults_several :
    let allowed : Option AllowedColumns := some (.list [.text "n"])
    let condition : Json := .object [("op", .string "<"), ("column", .string "m"), ("value_type", .string "int")]
    let d : Datum := .ofJson <| .object
      [("op", .string "xor"), ("params", .array [condition]), ("children", .null)]
    AnswersNames allowed ∧
      (∀ given target, AsksWithin given target maxPredicateDepth d → target.checkHashable = .ok ()) ∧
      (∀ shown, ShowsWithin shown maxPredicateDepth d → shown.isWritable = true) ∧
      ∃ rest, faults allowed d = .ok (("<root>", .unknownLogical "xor") :: rest) ∧ rest.length = 3 ∧
        ∃ e, toPredicate allowed d = .error e ∧ e.isQueryError = true ∧
          e = .unknownOperator (.text "xor") Logical.names (.text "<root>") := by
  intro allowed condition d
  have hanswers : AnswersNames allowed := by
    intro columns hcolumns name
    obtain rfl := Option.some.inj hcolumns
    exact ⟨_, rfl⟩
  obtain ⟨hiff, hfirst⟩ := toPredicate_of_faults allowed d
  obtain ⟨hhashable, hwritable⟩ := (hiff hanswers).mp ⟨_, rfl⟩
  exact ⟨hanswers, hhashable, hwritable, _, rfl, rfl, (hfirst _ rfl).2⟩

end Form

end RecordStore
