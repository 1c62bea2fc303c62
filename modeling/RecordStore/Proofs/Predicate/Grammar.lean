import RecordStore.Predicate.Form
import RecordStore.Proofs.Predicate.Depth
import RecordStore.Proofs.Result
import RecordStore.Proofs.Text.LowerCase

/-!
# The grammar of written predicates

What a written predicate looks like (`Form.IsNode`), and which tree it is the written form of
(`Form.Writes`), both said without the walks that check a form and build its tree. A form is read
exactly if it is one of the grammar, and the tree that is read is the one that it writes
(`Form.toPredicate_iff`).
-/

namespace RecordStore

namespace Form

/-! ## Conditions and nodes -/

/-- A key is missing, which stands for no items, or has a list of items. -/
def Lists (entries : List (Datum × Datum)) (key : String) (items : List Datum) : Prop :=
  Datum.lookup key entries = none ∧ items = [] ∨ Datum.lookup key entries = some (.list items)

/-- A column may be named, if only some may. -/
def Permitted (allowed : Option AllowedColumns) (column : String) : Prop :=
  ∀ columns, allowed = some columns → columns.permits column = .ok true

/-- The value of a condition, null if there is none. -/
def valueOf (entries : List (Datum × Datum)) : Datum := (Datum.lookup "value" entries).getD .null

/-- The written form of a condition: the symbol of a comparison, a column that may be named, and a
value, which can be cast if the name of a type is given. -/
structure IsCondition (allowed : Option AllowedColumns) (entries : List (Datum × Datum)) : Prop where
  operator : ∃ c : Comparison, Datum.lookup "op" entries = some (.text c.symbol)
  column : ∃ name, Datum.lookup "column" entries = some (.text name) ∧ name ≠ "" ∧
    Permitted allowed name
  valueType : ∀ target, Datum.lookup "value_type" entries = some target →
    target = .null ∨ ∃ t : CastType, target = .text t.name
  castable : ∀ target, Datum.lookup "value_type" entries = some target →
    ∃ operand, (valueOf entries).cast target = .ok operand

/-- The written form of a node of some depth: the name of a logical operator in letters of any case,
conditions, and nodes one level deeper. -/
inductive IsNode (allowed : Option AllowedColumns) : Nat → Datum → Prop
  | dict {depth : Nat} {entries : List (Datum × Datum)} {name : String} {params children : List Datum}
      (logical : Logical) (depth_le : depth ≤ maxPredicateDepth)
      (operator : Datum.lookup "op" entries = some (.text name))
      (anyCase : name.toList.map Char.toLower = logical.name.toList)
      (listed : Lists entries "params" params)
      (conditions : ∀ d ∈ params, ∃ inner, d = .dict inner ∧ IsCondition allowed inner)
      (below : Lists entries "children" children)
      (nodes : ∀ d ∈ children, IsNode allowed (depth + 1) d) : IsNode allowed depth (.dict entries)

/-! ## The tree of a form -/

/-- A form writes a condition: its comparison, its column, and its value, cast if it names a type. -/
def WritesCondition (d : Datum) (c : Condition) : Prop :=
  ∃ entries, d = .dict entries ∧
    Datum.lookup "op" entries = some (.text c.operator.symbol) ∧
    Datum.lookup "column" entries = some c.column ∧
    match Datum.lookup "value_type" entries with
    | none => c.operand = valueOf entries
    | some target => (valueOf entries).cast target = .ok c.operand

/-- A form writes a tree: its operator, its conditions and its children, each in their order. -/
inductive Writes : Datum → Predicate → Prop
  | node {entries : List (Datum × Datum)} {name : String} {params items : List Datum}
      {conditions : List Condition} {children : List Predicate} (logical : Logical)
      (operator : Datum.lookup "op" entries = some (.text name))
      (anyCase : name.toList.map Char.toLower = logical.name.toList)
      (listed : Lists entries "params" params)
      (written : List.Forall₂ WritesCondition params conditions)
      (below : Lists entries "children" items)
      (nodes : List.Forall₂ Writes items children) :
      Writes (.dict entries) (.node (.ofLogical logical) conditions children)

end Form

namespace Predicate

/-- Every condition of a tree, at whatever level, is of a kind. -/
inductive Everywhere (P : Condition → Prop) : Predicate → Prop
  | node {connective : Connective} {conditions : List Condition} {children : List Predicate}
      (own : ∀ c ∈ conditions, P c) (below : ∀ child ∈ children, Everywhere P child) :
      Everywhere P (.node connective conditions children)

end Predicate

/-! ## Names and symbols -/

/-- A comparison is found under its symbol. -/
theorem Comparison.ofSymbol?_eq_some {text : String} {c : Comparison} :
    ofSymbol? text = some c ↔ text = c.symbol := by
  constructor
  · intro h
    rw [ofSymbol?] at h
    have hfound := List.find?_some h
    exact (of_decide_eq_true hfound).symm
  · rintro rfl
    cases c <;> decide

/-- A type is found under its name. -/
theorem CastType.eq_name_of_ofName? {text : String} {t : CastType} (h : ofName? text = some t) :
    text = t.name := by
  rw [ofName?] at h
  have hfound := List.find?_some h
  exact (of_decide_eq_true hfound).symm

/-- A type is found under the names of types. -/
theorem CastType.isSome_ofName? {text : String} :
    (ofName? text).isSome = true ↔ ∃ t : CastType, text = t.name := by
  constructor
  · intro h
    obtain ⟨t, ht⟩ := Option.isSome_iff_exists.mp h
    exact ⟨t, eq_name_of_ofName? ht⟩
  · rintro ⟨t, rfl⟩
    cases t <;> decide

/-- An operator is found under its name. -/
theorem Logical.ofName?_eq_some {text : String} {l : Logical} :
    ofName? text = some l ↔ text = l.name := by
  constructor
  · intro h
    unfold ofName? at h
    split at h
    · next hand =>
      cases h
      exact hand
    · split at h
      · next hor =>
        cases h
        exact hor
      · cases h
  · rintro rfl
    cases l <;> decide

namespace Form

variable {allowed : Option AllowedColumns} {path : String} {entries : List (Datum × Datum)}

/-- A name is a text that is not empty. -/
theorem nonEmptyText?_eq_some {d : Option Datum} {name : String} :
    nonEmptyText? d = some name ↔ d = some (.text name) ∧ name ≠ "" := by
  unfold nonEmptyText?
  split
  · next text =>
    split
    · next hempty => simp [hempty, eq_comm]
    · next hne =>
      constructor
      · intro h
        cases h
        exact ⟨rfl, hne⟩
      · rintro ⟨h, -⟩
        cases h
        rfl
  · next hother =>
    constructor
    · nofun
    · rintro ⟨rfl, -⟩
      exact absurd rfl (hother name)

/-- A comparison is written as its symbol. -/
theorem comparison?_eq_some {d : Datum} {c : Comparison} :
    comparison? d = some c ↔ d = .text c.symbol := by
  unfold comparison?
  split
  · next text => rw [Comparison.ofSymbol?_eq_some, Datum.text.injEq]
  · next hother =>
    constructor
    · nofun
    · rintro rfl
      exact absurd rfl (hother _)

/-- The letters of the name of a logical operator may be small or capital ones. -/
theorem logical?_eq_some {name : String} {l : Logical} :
    logical? name = some l ↔ name.toList.map Char.toLower = l.name.toList := by
  have hall : l.name.toList.all (fun c => decide (Text.IsPlainLetter c)) = true := by
    cases l <;> decide
  have hplain : ∀ c ∈ l.name.toList, Text.IsPlainLetter c :=
    fun c hc => of_decide_eq_true (List.all_eq_true.mp hall c hc)
  rw [logical?, Logical.ofName?_eq_some, ← Text.lower_eq_iff hplain, ← String.toList_inj,
    String.toList_ofList]

/-- A list is found if the entries list it. -/
theorem list?_eq_some {key : String} {items : List Datum} :
    list? (Datum.lookup key entries) = some items ↔ Lists entries key items := by
  unfold list? Lists
  split
  · next h => simp [h, eq_comm]
  · next listed h => simp [h]
  · next d hd h =>
    simp only [h, reduceCtorEq, false_and, false_or, Option.some.injEq, false_iff]
    rintro rfl
    exact hd items rfl

/-- A cast is named by null or by the name of a type. -/
theorem namesCast_eq_ok {d : Datum} :
    namesCast d = .ok true ↔ d = .null ∨ ∃ t : CastType, d = .text t.name := by
  unfold namesCast
  split
  · simp
  · next text => simp [CastType.isSome_ofName?]
  · next hnull htext =>
    constructor
    · intro h
      cases hhash : d.checkHashable with
      | error e =>
        rw [hhash] at h
        cases h
      | ok _ =>
        rw [hhash] at h
        cases h
    · rintro (rfl | ⟨t, rfl⟩)
      · exact absurd rfl hnull
      · exact absurd rfl (htext _)

/-! ## Conditions -/

theorem refuse_ne_ok {fault : FormFault} {u : Unit} : refuse path fault ≠ .ok u := nofun

/-- A column passes if it is a permitted name. -/
theorem checkColumn_eq_ok {column : Option Datum} :
    checkColumn allowed path column = .ok () ↔
      ∃ name, column = some (.text name) ∧ name ≠ "" ∧ Permitted allowed name := by
  unfold checkColumn
  cases hname : nonEmptyText? column with
  | none =>
    refine iff_of_false refuse_ne_ok ?_
    rintro ⟨name, htext, hne, -⟩
    rw [nonEmptyText?_eq_some.mpr ⟨htext, hne⟩] at hname
    cases hname
  | some name =>
    obtain ⟨rfl, hne⟩ := nonEmptyText?_eq_some.mp hname
    have hpermitted : (∃ other, some (Datum.text name) = some (.text other) ∧ other ≠ "" ∧
        Permitted allowed other) ↔ Permitted allowed name := by
      constructor
      · rintro ⟨other, h, -, hother⟩
        cases h
        exact hother
      · exact fun h => ⟨name, rfl, hne, h⟩
    rw [hpermitted]
    cases allowed with
    | none => exact iff_of_true rfl nofun
    | some columns =>
      -- Permission is asked of the columns, which may fail to answer.
      have honly : Permitted (some columns) name ↔ columns.permits name = .ok true := by
        constructor
        · exact fun h => h columns rfl
        · rintro h _ ⟨⟩
          exact h
      rw [honly]
      dsimp only
      cases columns.permits name with
      | error e => exact iff_of_false nofun nofun
      | ok answer =>
        cases answer with
        | true => exact iff_of_true rfl rfl
        | false => exact iff_of_false nofun nofun

/-- What a condition must be to pass: all that the grammar asks, but for the cast of its value. -/
def ConditionPasses (allowed : Option AllowedColumns) (d : Datum) : Prop :=
  ∃ entries, d = .dict entries ∧
    (∃ c : Comparison, Datum.lookup "op" entries = some (.text c.symbol)) ∧
    (∃ name, Datum.lookup "column" entries = some (.text name) ∧ name ≠ "" ∧
      Permitted allowed name) ∧
    ((Datum.lookup "value_type" entries).getD .null = .null ∨
      ∃ t : CastType, (Datum.lookup "value_type" entries).getD .null = .text t.name)

theorem getD_eq_text {d : Option Datum} {text : String} :
    d.getD .null = .text text ↔ d = some (.text text) := by
  cases d with
  | none => exact iff_of_false nofun nofun
  | some d => rw [Option.getD_some, Option.some_inj]

/-- A condition passes the check exactly if it is one of the grammar, but for the cast of its
value. -/
theorem checkCondition_eq_ok {d : Datum} :
    checkCondition allowed path d = .ok () ↔ ConditionPasses allowed d := by
  unfold checkCondition
  split
  case h_2 hother =>
    refine iff_of_false refuse_ne_ok ?_
    rintro ⟨entries, rfl, -⟩
    exact hother entries rfl
  case h_1 entries =>
    cases hop : comparison? ((Datum.lookup "op" entries).getD .null) with
    | none =>
      simp only [hop, Option.isNone_none, if_true]
      refine iff_of_false nofun ?_
      rintro ⟨_, ⟨⟩, ⟨c, hc⟩, -⟩
      rw [comparison?_eq_some.mpr (getD_eq_text.mpr hc)] at hop
      cases hop
    | some c =>
      have hc := getD_eq_text.mp (comparison?_eq_some.mp hop)
      simp only [hop, Option.isNone_some, Bool.false_eq_true, if_false]
      -- What is left is checked in turn: the column, then the name of the type.
      refine Result.bind_eq_ok.trans ⟨?_, ?_⟩
      · rintro ⟨⟨⟩, hcolumn, h⟩
        obtain ⟨named, hnamed, h⟩ := Result.bind_eq_ok.mp h
        cases named with
        | false => cases h
        | true => exact ⟨entries, rfl, ⟨c, hc⟩, checkColumn_eq_ok.mp hcolumn, namesCast_eq_ok.mp hnamed⟩
      · rintro ⟨_, ⟨⟩, -, hcolumn, hnamed⟩
        exact ⟨(), checkColumn_eq_ok.mpr hcolumn,
          Result.bind_eq_ok.mpr ⟨true, namesCast_eq_ok.mpr hnamed, rfl⟩⟩

/-- The value of a condition as it is built: cast, if the name of a type is given. -/
def castValue (entries : List (Datum × Datum)) : Except Error Datum :=
  match Datum.lookup "value_type" entries with
  | none => .ok (valueOf entries)
  | some target => (valueOf entries).cast target

/-- The operand of a condition is its value, cast to the type that is named. -/
theorem castValue_eq_ok {operand : Datum} :
    castValue entries = .ok operand ↔
      match Datum.lookup "value_type" entries with
      | none => operand = valueOf entries
      | some target => (valueOf entries).cast target = .ok operand := by
  unfold castValue
  cases Datum.lookup "value_type" entries with
  | none => exact ⟨fun h => (Except.ok.inj h).symm, congrArg _ ∘ Eq.symm⟩
  | some target => exact Iff.rfl

/-- A condition that passes the check is built with its column and its comparison, as soon as its
value has been cast. -/
theorem buildCondition_of_passes {d : Datum} (h : ConditionPasses allowed d) :
    ∃ entries, d = .dict entries ∧ ∃ (c : Comparison) (name : String),
      Datum.lookup "op" entries = some (.text c.symbol) ∧
      Datum.lookup "column" entries = some (.text name) ∧
      buildCondition d = (castValue entries).map fun operand => ⟨.text name, c, operand⟩ := by
  obtain ⟨entries, rfl, ⟨operator, hop⟩, ⟨name, hcolumn, hne, -⟩, -⟩ := h
  refine ⟨entries, rfl, operator, name, hop, hcolumn, ?_⟩
  have hname : nonEmptyText? (Datum.lookup "column" entries) = some name :=
    nonEmptyText?_eq_some.mpr ⟨hcolumn, hne⟩
  -- The constructor asks again for what the condition has shown.
  have hmake (operand : Datum) :
      Condition.make (.text name) (.text operator.symbol) operand =
        .ok ⟨.text name, operator, operand⟩ := by
    have htruthy : (Datum.text name).isTruthy = true := decide_eq_true hne
    simp [Condition.make, htruthy, Comparison.ofSymbol?_eq_some.mpr rfl]
  have hbuild : buildCondition (.dict entries) = castValue entries >>= fun operand =>
      Condition.make (.text name) (.text operator.symbol) operand := by
    unfold buildCondition castValue
    simp only [hname, hop, Option.getD_some, valueOf]
    cases Datum.lookup "value_type" entries <;> rfl
  rw [hbuild]
  simp only [hmake]
  cases castValue entries <;> rfl

/-- A condition that passes the check is built exactly as its form writes it, if its value can be
cast. -/
theorem buildCondition_eq_ok {d : Datum} (h : ConditionPasses allowed d) {c : Condition} :
    buildCondition d = .ok c ↔ WritesCondition d c := by
  obtain ⟨entries, rfl, operator, name, hop, hcolumn, hbuild⟩ := buildCondition_of_passes h
  rw [hbuild, Result.map_eq_ok]
  constructor
  · rintro ⟨operand, hoperand, rfl⟩
    exact ⟨entries, rfl, hop, hcolumn, castValue_eq_ok.mp hoperand⟩
  · rintro ⟨_, ⟨⟩, hop', hcolumn', hoperand⟩
    obtain ⟨column, operator', operand⟩ := c
    rw [hcolumn] at hcolumn'
    rw [hop] at hop'
    cases hcolumn'
    -- Different comparisons have different symbols.
    obtain rfl : operator = operator' := by
      have hsymbol : operator.symbol = operator'.symbol := by simpa using hop'
      exact Option.some.inj ((Comparison.ofSymbol?_eq_some.mpr rfl).symm.trans
        (Comparison.ofSymbol?_eq_some.mpr hsymbol))
    exact ⟨operand, castValue_eq_ok.mpr hoperand, rfl⟩

/-- A condition passes the check and is built exactly if it is one of the grammar, and then as its
form writes it. -/
theorem condition_iff {d : Datum} {c : Condition} :
    ConditionPasses allowed d ∧ buildCondition d = .ok c ↔
      (∃ entries, d = .dict entries ∧ IsCondition allowed entries) ∧ WritesCondition d c := by
  constructor
  · rintro ⟨hpasses, hbuild⟩
    have hwrites := (buildCondition_eq_ok hpasses).mp hbuild
    obtain ⟨entries, rfl, hop, hcolumn, htype⟩ := hpasses
    refine ⟨⟨entries, rfl, hop, hcolumn, fun target htarget => ?_, fun target htarget => ?_⟩, hwrites⟩
    · rw [htarget] at htype
      exact htype
    · obtain ⟨_, ⟨⟩, -, -, hoperand⟩ := hwrites
      rw [htarget] at hoperand
      exact ⟨_, hoperand⟩
  · rintro ⟨⟨entries, rfl, hcondition⟩, hwrites⟩
    have hpasses : ConditionPasses allowed (.dict entries) := by
      refine ⟨entries, rfl, hcondition.operator, hcondition.column, ?_⟩
      cases htarget : Datum.lookup "value_type" entries with
      | none => exact .inl rfl
      | some target => exact hcondition.valueType target htarget
    exact ⟨hpasses, (buildCondition_eq_ok hpasses).mpr hwrites⟩

/-- Each condition of the grammar is written by its form. -/
theorem exists_writesCondition (h : IsCondition allowed entries) :
    ∃ c, WritesCondition (.dict entries) c := by
  obtain ⟨⟨operator, hop⟩, ⟨name, hcolumn, -⟩, -, hcast⟩ := h
  cases htarget : Datum.lookup "value_type" entries with
  | none =>
    refine ⟨⟨.text name, operator, valueOf entries⟩, entries, rfl, hop, hcolumn, ?_⟩
    rw [htarget]
  | some target =>
    obtain ⟨operand, hoperand⟩ := hcast target htarget
    refine ⟨⟨.text name, operator, operand⟩, entries, rfl, hop, hcolumn, ?_⟩
    rw [htarget]
    exact hoperand

/-! ## Nodes -/

/-- An operator passes if it is the name of one, in letters of either case. -/
theorem checkOperator_eq_ok {operator : Option Datum} :
    checkOperator path operator = .ok () ↔ ∃ name, ∃ l : Logical,
      operator = some (.text name) ∧ name.toList.map Char.toLower = l.name.toList := by
  unfold checkOperator
  cases hname : nonEmptyText? operator with
  | none =>
    refine iff_of_false refuse_ne_ok ?_
    rintro ⟨name, l, rfl, hcase⟩
    -- No operator has an empty name.
    have hne : name ≠ "" := by
      rintro rfl
      cases l <;> cases hcase
    rw [nonEmptyText?_eq_some.mpr ⟨rfl, hne⟩] at hname
    cases hname
  | some name =>
    obtain ⟨rfl, -⟩ := nonEmptyText?_eq_some.mp hname
    dsimp only
    cases hl : logical? name with
    | some l => exact iff_of_true rfl ⟨name, l, rfl, logical?_eq_some.mp hl⟩
    | none =>
      refine iff_of_false nofun ?_
      rintro ⟨_, l, ⟨⟩, hcase⟩
      rw [logical?_eq_some.mpr hcase] at hl
      cases hl

/-- Conditions pass if each of them does. -/
theorem checkConditions_eq_ok {index : Nat} {params : List Datum} :
    checkConditions allowed path index params = .ok () ↔
      ∀ d ∈ params, ConditionPasses allowed d := by
  induction params generalizing index with
  | nil => exact iff_of_true rfl (List.forall_mem_nil _)
  | cons d rest ih =>
    rw [checkConditions, Result.bind_eq_ok, List.forall_mem_cons, ← checkCondition_eq_ok, ← ih]
    constructor
    · rintro ⟨⟨⟩, hfirst, hrest⟩
      exact ⟨hfirst, hrest⟩
    · rintro ⟨hfirst, hrest⟩
      exact ⟨(), hfirst, hrest⟩

/-- A list under a key passes the check exactly if what is asked of its items holds. -/
theorem checkList_eq_ok {key : String} {fault : FormFault} {step : List Datum → Except Error Unit} :
    (match list? (Datum.lookup key entries) with
      | none => refuse path fault
      | some items => step items) = .ok () ↔
      ∃ items, Lists entries key items ∧ step items = .ok () := by
  simp only [← list?_eq_some]
  cases list? (Datum.lookup key entries) with
  | none => exact iff_of_false refuse_ne_ok nofun
  | some items => simp

/-- The check of a node: its operator, then its conditions, then its children. -/
theorem checkNode_dict {levels : Nat} :
    checkNode allowed (levels + 1) path (.dict entries) =
      checkOperator path (Datum.lookup "op" entries) >>= fun _ =>
      (match list? (Datum.lookup "params" entries) with
        | none => refuse path .paramsNotList
        | some params => checkConditions allowed path 0 params) >>= fun _ =>
      match list? (Datum.lookup "children" entries) with
      | none => refuse path .childrenNotList
      | some children => children.zipIdx.forM fun entry =>
        checkNode allowed levels (itemPath path "children" entry.2) entry.1 := by
  rw [checkNode]
  cases list? (Datum.lookup "params" entries) <;> rfl

/-- A node passes the check exactly if its operator, its conditions and its children do. -/
theorem checkNode_dict_eq_ok {levels : Nat} :
    checkNode allowed (levels + 1) path (.dict entries) = .ok () ↔
      checkOperator path (Datum.lookup "op" entries) = .ok () ∧
      (∃ params, Lists entries "params" params ∧ ∀ d ∈ params, ConditionPasses allowed d) ∧
      ∃ children, Lists entries "children" children ∧ ∀ entry ∈ children.zipIdx,
        checkNode allowed levels (itemPath path "children" entry.2) entry.1 = .ok () := by
  simp only [checkNode_dict, Result.bind_eq_ok, checkList_eq_ok, checkConditions_eq_ok,
    Result.forM_eq_ok, Unique.exists_iff, PUnit.default_eq_unit]

/-- A node that passes the check is built from its conditions and the trees of its children. -/
theorem buildNode_dict {levels : Nat} {name : String} {l : Logical} {params items : List Datum}
    (hname : Datum.lookup "op" entries = some (.text name))
    (hcase : name.toList.map Char.toLower = l.name.toList) (hparams : Lists entries "params" params)
    (hitems : Lists entries "children" items) :
    buildNode (levels + 1) (.dict entries) =
      params.mapM buildCondition >>= fun conditions =>
      items.mapM (buildNode levels) >>= fun children =>
      .ok (.node (.ofLogical l) conditions children) := by
  have hne : name ≠ "" := by
    rintro rfl
    cases l <;> cases hcase
  have hop : (nonEmptyText? (Datum.lookup "op" entries)).bind logical? = some l := by
    rw [nonEmptyText?_eq_some.mpr ⟨hname, hne⟩, Option.bind_some, logical?_eq_some.mpr hcase]
  rw [buildNode, hop, list?_eq_some.mpr hparams, list?_eq_some.mpr hitems]
  rfl

/-- A node is built of its operator, its conditions and its children. -/
theorem buildNode_dict_eq_ok {levels : Nat} {name : String} {l : Logical} {params items : List Datum}
    {p : Predicate} (hname : Datum.lookup "op" entries = some (.text name))
    (hcase : name.toList.map Char.toLower = l.name.toList) (hparams : Lists entries "params" params)
    (hitems : Lists entries "children" items) :
    buildNode (levels + 1) (.dict entries) = .ok p ↔ ∃ conditions children,
      List.Forall₂ (fun d c => buildCondition d = .ok c) params conditions ∧
      List.Forall₂ (fun d child => buildNode levels d = .ok child) items children ∧
      p = .node (.ofLogical l) conditions children := by
  rw [buildNode_dict hname hcase hparams hitems]
  simp only [Result.bind_eq_ok, Result.mapM_eq_ok, exists_and_left]
  refine exists_congr fun conditions => and_congr_right fun _ => exists_congr fun children =>
    and_congr_right fun _ => ⟨fun h => (Except.ok.inj h).symm, fun h => h ▸ rfl⟩

/-! ## Trees -/

theorem Lists.unique {key : String} {items other : List Datum} (h : Lists entries key items)
    (h' : Lists entries key other) : items = other :=
  Option.some.inj ((list?_eq_some.mpr h).symm.trans (list?_eq_some.mpr h'))

theorem logical_unique {name : String} {l l' : Logical}
    (h : name.toList.map Char.toLower = l.name.toList)
    (h' : name.toList.map Char.toLower = l'.name.toList) : l = l' :=
  Option.some.inj ((logical?_eq_some.mpr h).symm.trans (logical?_eq_some.mpr h'))

/-- Beyond the last level no node passes. -/
theorem not_node_of_levels {d : Datum} : checkNode allowed 0 path d ≠ .ok () := by
  cases d <;> exact nofun

/-- Where a node stands in a form shows in the faults, but not in whether there is one. -/
theorem checkNode_eq_ok_iff (other : String) {levels : Nat} {d : Datum} :
    checkNode allowed levels path d = .ok () ↔ checkNode allowed levels other d = .ok () := by
  induction levels generalizing path other d with
  | zero => exact iff_of_false not_node_of_levels not_node_of_levels
  | succ levels ih =>
    cases d
    case dict entries =>
      simp only [checkNode_dict_eq_ok, checkOperator_eq_ok]
      refine and_congr_right fun _ => and_congr_right fun _ => exists_congr fun children =>
        and_congr_right fun _ => forall₂_congr fun entry _ => ih _
    all_goals exact iff_of_false nofun nofun

/-- What is asked of the items of a list at every index is asked of its items. -/
theorem forall_zipIdx_iff {P : Datum → Prop} {items : List Datum} :
    (∀ entry ∈ items.zipIdx, P entry.1) ↔ ∀ d ∈ items, P d := by
  conv_rhs => rw [← List.zipIdx_map_fst 0 items]
  rw [List.forall_mem_map]

/-- The path of a child names its index, but the check of the child does not depend on it. -/
theorem checkNode_zipIdx_iff {levels : Nat} {items : List Datum} :
    (∀ entry ∈ items.zipIdx,
      checkNode allowed levels (itemPath path "children" entry.2) entry.1 = .ok ()) ↔
    ∀ d ∈ items, checkNode allowed levels path d = .ok () := by
  rw [← forall_zipIdx_iff]
  exact forall₂_congr fun _ _ => checkNode_eq_ok_iff path

/-- The conditions of a node that pass the check and are built are those of the grammar. -/
theorem conditions_iff {params : List Datum} {conditions : List Condition} :
    ((∀ d ∈ params, ConditionPasses allowed d) ∧
      List.Forall₂ (fun d c => buildCondition d = .ok c) params conditions) ↔
    (∀ d ∈ params, ∃ inner, d = .dict inner ∧ IsCondition allowed inner) ∧
      List.Forall₂ WritesCondition params conditions := by
  rw [← List.forall₂_and_left, ← List.forall₂_and_left]
  simp only [condition_iff]

/-- The nodes of the form are exactly those that pass the check and are built, and what is built is
the tree that the form writes. -/
theorem node_iff {levels depth : Nat} (h : depth + levels = maxPredicateDepth + 1) {d : Datum}
    {p : Predicate} :
    checkNode allowed levels path d = .ok () ∧ buildNode levels d = .ok p ↔
      IsNode allowed depth d ∧ Writes d p := by
  induction levels generalizing depth path d p with
  | zero =>
    refine iff_of_false (fun ⟨hcheck, _⟩ => not_node_of_levels hcheck) ?_
    rintro ⟨⟨-, hdepth, -⟩, -⟩
    omega
  | succ levels ih =>
    cases d
    case dict entries =>
      -- The children stand one level deeper, with one level less to go.
      have hchildren {items : List Datum} {children : List Predicate} :
          ((∀ d ∈ items, checkNode allowed levels path d = .ok ()) ∧
            List.Forall₂ (fun d child => buildNode levels d = .ok child) items children) ↔
          (∀ d ∈ items, IsNode allowed (depth + 1) d) ∧ List.Forall₂ Writes items children := by
        rw [← List.forall₂_and_left, ← List.forall₂_and_left]
        have hnext : depth + 1 + levels = maxPredicateDepth + 1 := by omega
        simp only [ih hnext]
      constructor
      · rintro ⟨hcheck, hbuild⟩
        obtain ⟨hop, ⟨params, hparams, hpass⟩, items, hitems, hall⟩ := checkNode_dict_eq_ok.mp hcheck
        obtain ⟨name, l, hname, hcase⟩ := checkOperator_eq_ok.mp hop
        obtain ⟨conditions, children, hbuilt, hbelow, rfl⟩ :=
          (buildNode_dict_eq_ok hname hcase hparams hitems).mp hbuild
        obtain ⟨hvalid, hwritten⟩ := conditions_iff.mp ⟨hpass, hbuilt⟩
        obtain ⟨hnodes, htrees⟩ := hchildren.mp ⟨checkNode_zipIdx_iff.mp hall, hbelow⟩
        exact ⟨.dict l (by omega) hname hcase hparams hvalid hitems hnodes,
          .node l hname hcase hparams hwritten hitems htrees⟩
      · rintro ⟨@⟨_, _, name, params, items, l, hdepth, hname, hcase, hparams, hvalid, hitems, hnodes⟩,
          @⟨_, name', params', items', conditions, children, l', hname', hcase', hparams', hwritten,
            hitems', htrees⟩⟩
        rw [hname] at hname'
        cases hname'
        -- What is valid and what is written speak of the same entries.
        obtain rfl := hparams.unique hparams'
        obtain rfl := hitems.unique hitems'
        obtain rfl := logical_unique hcase hcase'
        obtain ⟨hpass, hbuilt⟩ := conditions_iff.mpr ⟨hvalid, hwritten⟩
        obtain ⟨hall, hbelow⟩ := hchildren.mpr ⟨hnodes, htrees⟩
        exact ⟨checkNode_dict_eq_ok.mpr ⟨checkOperator_eq_ok.mpr ⟨name, l, hname, hcase⟩,
            ⟨params, hparams, hpass⟩, items, hitems, checkNode_zipIdx_iff.mpr hall⟩,
          (buildNode_dict_eq_ok hname hcase hparams hitems).mpr
            ⟨conditions, children, hbuilt, hbelow, rfl⟩⟩
    all_goals exact iff_of_false (fun ⟨hcheck, _⟩ => nomatch hcheck) (fun ⟨hnode, _⟩ => nomatch hnode)

/-- Each node of the grammar writes a tree. -/
theorem IsNode.exists_writes {depth : Nat} {d : Datum} (h : IsNode allowed depth d) :
    ∃ p, Writes d p := by
  induction h with
  | dict l _ hname hcase hparams hvalid hitems _ ih =>
    obtain ⟨conditions, hconditions⟩ := exists_forall₂ fun d hd => by
      obtain ⟨inner, rfl, hinner⟩ := hvalid d hd
      exact exists_writesCondition hinner
    obtain ⟨children, hchildren⟩ := exists_forall₂ ih
    exact ⟨_, .node l hname hcase hparams hconditions hitems hchildren⟩

/-- The conditions of the tree that a node writes name columns that may be named. -/
theorem IsNode.everywhere {depth : Nat} {d : Datum} (h : IsNode allowed depth d) {p : Predicate}
    (hp : Writes d p) :
    p.Everywhere fun c => ∃ name, c.column = .text name ∧ name ≠ "" ∧ Permitted allowed name := by
  induction h generalizing p with
  | dict l _ _ _ hparams hvalid hitems _ ih =>
    obtain ⟨_, _, _, hparams', hconditions, hitems', hchildren⟩ := hp
    obtain rfl := hparams.unique hparams'
    obtain rfl := hitems.unique hitems'
    refine .node (forall_mem_of_forall₂ hconditions fun d hd c hc => ?_)
      (forall_mem_of_forall₂ hchildren fun d hd child hchild => ih d hd hchild)
    obtain ⟨entries, rfl, hcondition⟩ := hvalid d hd
    obtain ⟨_, ⟨⟩, -, hcolumn, -⟩ := hc
    obtain ⟨name, hname, hne, hpermitted⟩ := hcondition.column
    exact ⟨name, Option.some.inj (hcolumn.symm.trans hname), hne, hpermitted⟩

/-- The tree that a node writes has no level beyond the greatest depth. -/
theorem IsNode.height_le {depth : Nat} {d : Datum} (h : IsNode allowed depth d) {p : Predicate}
    (hp : Writes d p) : p.height + depth ≤ maxPredicateDepth + 1 := by
  induction h generalizing p with
  | @dict depth _ _ _ _ l hdepth _ _ _ _ hitems _ ih =>
    obtain ⟨_, _, _, _, _, hitems', hchildren⟩ := hp
    obtain rfl := hitems.unique hitems'
    have hbelow := Predicate.heights_le_iff.mpr (forall_mem_of_forall₂ hchildren
      fun d hd child hchild => Nat.le_sub_of_add_le (ih d hd hchild))
    rw [Predicate.height]
    omega

/-- What is read is a node of the grammar with the tree that it writes. -/
theorem toPredicate_eq_ok {d : Datum} {p : Predicate} :
    toPredicate allowed d = .ok p ↔ IsNode allowed 1 d ∧ Writes d p := by
  have hnode : checkNode allowed maxPredicateDepth rootPath d = .ok () ∧
      buildNode maxPredicateDepth d = .ok p ↔ IsNode allowed 1 d ∧ Writes d p :=
    node_iff (Nat.add_comm 1 maxPredicateDepth)
  rw [← hnode, toPredicate, Result.bind_eq_ok, check]
  exact Unique.exists_iff

/-- A form is read exactly if it is a node of the grammar. What is read is the tree that the form
writes; it names only columns that may be named, and is not too deep. -/
theorem toPredicate_iff (allowed : Option AllowedColumns) (d : Datum) :
    ((∃ p, toPredicate allowed d = .ok p) ↔ IsNode allowed 1 d) ∧
      ∀ p, toPredicate allowed d = .ok p → Writes d p ∧
        (p.Everywhere fun c => ∃ name, c.column = .text name ∧ name ≠ "" ∧ Permitted allowed name) ∧
        p.checkDepth = .ok () := by
  refine ⟨⟨?_, fun hnode => ?_⟩, fun p hp => ?_⟩
  · rintro ⟨p, hp⟩
    exact (toPredicate_eq_ok.mp hp).1
  · obtain ⟨p, hp⟩ := hnode.exists_writes
    exact ⟨p, toPredicate_eq_ok.mpr ⟨hnode, hp⟩⟩
  · obtain ⟨hnode, hwrites⟩ := toPredicate_eq_ok.mp hp
    refine ⟨hwrites, ?_, Predicate.checkDepth_of_height_le
      (Nat.le_of_add_le_add_right (hnode.height_le hwrites))⟩
    exact hnode.everywhere hwrites

end Form

end RecordStore
