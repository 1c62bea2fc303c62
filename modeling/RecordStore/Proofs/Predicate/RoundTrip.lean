import RecordStore.Proofs.Predicate.Errors

/-!
# Writing predicates and reading them again

A tree of logical nodes is read back from its written form, and from the canonical JSON of that form,
up to the order of keys in the values that it compares with (`Form.toPredicate_toDatum`). A tree with
too many levels is refused: its form has just as many.
-/

namespace RecordStore

namespace Condition

/-- The column of a condition is named. -/
def IsNamed (c : Condition) : Prop := ∃ name, c.column = .text name ∧ name ≠ ""

/-- Two conditions make the same comparison with related values. -/
structure Agrees (R : Datum → Datum → Prop) (c other : Condition) : Prop where
  column_eq : other.column = c.column
  operator_eq : other.operator = c.operator
  operand : R c.operand other.operand

theorem eq_of_agrees {c other : Condition} (h : c.Agrees Eq other) : c = other := by
  obtain ⟨hcolumn, hoperator, hoperand⟩ := h
  cases c
  cases other
  cases hcolumn
  cases hoperator
  cases hoperand
  rfl

end Condition

namespace Predicate

/-- Every node of a tree combines its parts with "and" or with "or". -/
inductive IsLogical : Predicate → Prop
  | node (logical : Logical) {conditions : List Condition} {children : List Predicate}
      (nodes : ∀ child ∈ children, IsLogical child) :
      IsLogical (.node (.ofLogical logical) conditions children)

/-- Two trees have the same nodes with the same comparisons, but for values that are related. -/
inductive Agrees (R : Datum → Datum → Prop) : Predicate → Predicate → Prop
  | node {connective : Connective} {conditions others : List Condition}
      {children otherChildren : List Predicate}
      (own : List.Forall₂ (Condition.Agrees R) conditions others)
      (below : List.Forall₂ (Agrees R) children otherChildren) :
      Agrees R (.node connective conditions children) (.node connective others otherChildren)

/-- Trees that agree in all values are equal. -/
theorem eq_of_agrees {p q : Predicate} (h : Agrees Eq p q) : p = q := by
  induction p using Predicate.induction generalizing q with
  | node connective conditions children ih =>
    obtain ⟨own, below⟩ := h
    have hconditions := own.imp fun _ _ => Condition.eq_of_agrees
    have hchildren : List.Forall₂ Eq children _ :=
      ((List.forall₂_and_left _ _).mpr ⟨ih, below⟩).imp fun _ _ hchild => hchild.1 hchild.2
    rw [List.forall₂_eq_eq_eq] at hconditions hchildren
    rw [hconditions, hchildren]

theorem toData_eq_map (children : List Predicate) : toData children = children.map toDatum := by
  induction children with
  | nil => rfl
  | cons child rest ih => rw [toData, ih, List.map_cons]

end Predicate

namespace Form

variable {R : Datum → Datum → Prop} {allowed : Option AllowedColumns} {path : String}

/-! ## What is written -/

theorem anyCase_name (l : Logical) : l.name.toList.map Char.toLower = l.name.toList := by
  cases l <;> decide

/-- The form of a condition, and all that is related to it, writes the condition. -/
theorem exists_writesCondition_of_related (hR : Datum.IsUniform R) {c : Condition} {d : Datum}
    (hnamed : c.IsNamed) (h : R c.toDatum d) :
    (∃ entries, d = .dict entries ∧ IsCondition none entries) ∧
      ∃ other, WritesCondition d other ∧ c.Agrees R other := by
  obtain ⟨name, hname, hne⟩ := hnamed
  have hdistinct : ["column", "op", "value"].Nodup := by decide
  have hother : "value_type" ∉ ["column", "op", "value"] := by decide
  obtain ⟨entries, rfl, hfields, hnone⟩ := hR.exists_entries h hdistinct
  simp only [List.forall_mem_cons] at hfields
  obtain ⟨⟨column, hcolumn, hcolumn'⟩, ⟨op, hop, hop'⟩, ⟨operand, hvalue, hoperand⟩, -⟩ := hfields
  obtain rfl := hR.text hop'
  rw [hname] at hcolumn'
  obtain rfl := hR.text hcolumn'
  -- The form names no type, so that the value is taken as it is.
  have hplain : Datum.lookup "value_type" entries = none := hnone _ hother
  have hcondition : IsCondition none entries :=
    { operator := ⟨c.operator, hop⟩
      column := ⟨name, hcolumn, hne, nofun⟩
      valueType := fun target htarget => by cases hplain.symm.trans htarget
      castable := fun target htarget => by cases hplain.symm.trans htarget }
  have hwrites : WritesCondition (.dict entries) ⟨c.column, c.operator, operand⟩ := by
    refine ⟨entries, rfl, hop, hname ▸ hcolumn, ?_⟩
    rw [hplain, valueOf, hvalue]
    rfl
  exact ⟨⟨entries, rfl, hcondition⟩, _, hwrites, rfl, rfl, hoperand⟩

/-- The form of a tree of logical nodes, and all that is related to it, is a node of the grammar and
writes the tree. -/
theorem exists_writes_of_related (hR : Datum.IsUniform R) {p : Predicate} (hlogical : p.IsLogical)
    (hnamed : p.Everywhere Condition.IsNamed) {d : Datum} (h : R p.toDatum d) {depth : Nat}
    (hdepth : p.height + depth ≤ maxPredicateDepth + 1) :
    IsNode none depth d ∧ ∃ q, Writes d q ∧ p.Agrees R q := by
  induction p using Predicate.induction generalizing d depth with
  | node connective conditions children ih =>
    obtain ⟨l, hnodes⟩ := hlogical
    obtain ⟨hown, hbelow⟩ := hnamed
    rw [Predicate.height] at hdepth
    have hheights := Predicate.heights_le_iff.mp (Nat.le_refl (Predicate.heights children))
    rw [Predicate.toDatum, Predicate.toData_eq_map] at h
    have hdistinct : ["op", "params", "children"].Nodup := by decide
    obtain ⟨entries, rfl, hfields, -⟩ := hR.exists_entries h hdistinct
    simp only [List.forall_mem_cons] at hfields
    obtain ⟨⟨op, hop, hop'⟩, ⟨params, hparams, hparams'⟩, ⟨items, hitems, hitems'⟩, -⟩ := hfields
    obtain rfl := hR.text hop'
    obtain ⟨params, rfl, hconditions⟩ := hR.list hparams'
    obtain ⟨items, rfl, hchildren⟩ := hR.list hitems'
    rw [List.forall₂_map_left_iff] at hconditions hchildren
    -- Each part of `d` is related to the form of its part of the tree, and read as such.
    have hcondition (c : Condition) (hc : c ∈ conditions) (d : Datum) (hd : R c.toDatum d) :=
      exists_writesCondition_of_related hR (hown c hc) hd
    have hchild (child : Predicate) (hc : child ∈ children) (d : Datum) (hd : R child.toDatum d) :
        IsNode none (depth + 1) d ∧ ∃ q, Writes d q ∧ child.Agrees R q := by
      have hlevel := hheights child hc
      exact ih child hc (hnodes child hc) (hbelow child hc) hd (by omega)
    obtain ⟨others, hwritten, hagree⟩ :=
      exists_forall₂_both hconditions fun c hc d hd => (hcondition c hc d hd).2
    obtain ⟨otherChildren, htrees, hagrees⟩ :=
      exists_forall₂_both hchildren fun child hc d hd => (hchild child hc d hd).2
    have hoperator : Datum.lookup "op" entries = some (.text l.name) := by
      cases l <;> exact hop
    have hownListed : Lists entries "params" params := .inr hparams
    have hbelowListed : Lists entries "children" items := .inr hitems
    have hnode : IsNode none depth (.dict entries) := by
      refine .dict l (by omega) hoperator (anyCase_name l) hownListed ?_ hbelowListed ?_
      · exact forall_mem_of_forall₂ hconditions fun c hc d hd => (hcondition c hc d hd).1
      · exact forall_mem_of_forall₂ hchildren fun child hc d hd => (hchild child hc d hd).1
    have hwrites := Writes.node l hoperator (anyCase_name l) hownListed hwritten
      hbelowListed htrees
    exact ⟨hnode, _, hwrites, .node hagree hagrees⟩

/-- A tree of logical nodes with named columns comes back from its written form. -/
theorem toPredicate_of_height_le {p : Predicate} (hlogical : p.IsLogical)
    (hnamed : p.Everywhere Condition.IsNamed) (hheight : p.height ≤ maxPredicateDepth) :
    toPredicate none p.toDatum = .ok p := by
  have hlevels : p.height + 1 ≤ maxPredicateDepth + 1 := Nat.succ_le_succ hheight
  -- The form itself is an instance of what is related to it by equality.
  obtain ⟨hnode, q, hwrites, hagrees⟩ :=
    exists_writes_of_related Datum.isUniform_eq hlogical hnamed rfl hlevels
  rw [← Predicate.eq_of_agrees hagrees] at hwrites
  exact toPredicate_eq_ok.mpr ⟨hnode, hwrites⟩

/-! ## Levels -/

/-- A predicate is written as a dictionary that lists its conditions and its children. -/
theorem exists_entries_toDatum (connective : Connective) (conditions : List Condition)
    (children : List Predicate) :
    ∃ entries, (Predicate.node connective conditions children).toDatum = .dict entries ∧
      Lists entries "params" (conditions.map Condition.toDatum) ∧
      Lists entries "children" (children.map Predicate.toDatum) := by
  rw [Predicate.toDatum, Predicate.toData_eq_map]
  exact ⟨_, rfl, .inr rfl, .inr rfl⟩

/-- A form that passes the check is not higher than its levels. -/
theorem height_le_of_checkNode {p : Predicate} {levels : Nat}
    (h : checkNode allowed levels path p.toDatum = .ok ()) : p.height ≤ levels := by
  induction p using Predicate.induction generalizing levels path with
  | node connective conditions children ih =>
    cases levels with
    | zero => exact absurd h not_node_of_levels
    | succ levels =>
      obtain ⟨entries, hentries, -, hlisted⟩ := exists_entries_toDatum connective conditions children
      rw [hentries] at h
      obtain ⟨-, -, items, hitems, hall⟩ := checkNode_dict_eq_ok.mp h
      obtain rfl := hlisted.unique hitems
      rw [checkNode_zipIdx_iff, List.forall_mem_map] at hall
      rw [Predicate.height]
      exact Nat.succ_le_succ (Predicate.heights_le_iff.mpr fun child hc => ih child hc (hall child hc))

/-- The conditions of the form of a tree are the forms of conditions. -/
theorem exists_condition_of_hasWithin {p : Predicate} {levels : Nat} {condition : Datum}
    (h : HasWithin condition levels p.toDatum) : ∃ c : Condition, condition = c.toDatum := by
  induction p using Predicate.induction generalizing levels with
  | node connective conditions children ih =>
    obtain ⟨entries, hentries, hown, hbelow⟩ := exists_entries_toDatum connective conditions children
    rw [hentries] at h
    obtain ⟨hlisted, hmem⟩ | ⟨hlisted, hmem, hwithin⟩ := h
    · obtain rfl := hown.unique hlisted
      obtain ⟨c, -, rfl⟩ := List.mem_map.mp hmem
      exact ⟨c, rfl⟩
    · obtain rfl := hbelow.unique hlisted
      obtain ⟨child, hc, rfl⟩ := List.mem_map.mp hmem
      exact ih child hc hwithin

/-- The form of a condition names a comparison and asks for no cast. -/
theorem not_blocks_toDatum (c : Condition) (e : Error) : ¬Blocks c.toDatum e := by
  exact forall_not_blocks_iff.mpr ⟨rfl, rfl, rfl⟩ e

/-- The form of a tree with too many levels is refused. -/
theorem exists_error_of_height {p : Predicate} (h : maxPredicateDepth < p.height) :
    ∃ e, toPredicate none p.toDatum = .error e ∧ e.isQueryError = true := by
  cases hcheck : check none p.toDatum with
  | ok _ => exact absurd (height_le_of_checkNode hcheck) (Nat.not_le.mpr h)
  | error e =>
    have hanswers : AnswersNames none := nofun
    refine ⟨e, Result.bind_eq_error.mpr (.inl hcheck), ?_⟩
    refine (isQueryError_of_checkNode hanswers hcheck).resolve_right ?_
    rintro ⟨condition, hwithin, hblocks⟩
    obtain ⟨c, rfl⟩ := exists_condition_of_hasWithin hwithin
    exact not_blocks_toDatum c e hblocks

/-! ## Texts -/

/-- A condition with a plain operand is written as plain data. -/
theorem isPlain_condition {c : Condition} (hnamed : c.IsNamed) (hplain : c.operand.IsPlain) :
    c.toDatum.IsPlain := by
  obtain ⟨name, hname, -⟩ := hnamed
  have hcolumn : c.column.IsPlain := hname ▸ .text name
  have hdistinct : ["column", "op", "value"].Nodup := by decide
  refine .dict hdistinct ?_
  simp [hcolumn, hplain, Datum.IsPlain.text]

/-- A predicate with plain operands is written as plain data. -/
theorem isPlain_toDatum {p : Predicate} (hnamed : p.Everywhere Condition.IsNamed)
    (hplain : p.Everywhere fun c => c.operand.IsPlain) : p.toDatum.IsPlain := by
  induction p using Predicate.induction with
  | node connective conditions children ih =>
    obtain ⟨hown, hbelow⟩ := hnamed
    obtain ⟨hownPlain, hbelowPlain⟩ := hplain
    have hconditions : ∀ c ∈ conditions, c.toDatum.IsPlain :=
      fun c hc => isPlain_condition (hown c hc) (hownPlain c hc)
    have hchildren : ∀ child ∈ children, child.toDatum.IsPlain :=
      fun child hc => ih child hc (hbelow child hc) (hbelowPlain child hc)
    have hdistinct : ["op", "params", "children"].Nodup := by decide
    rw [Predicate.toDatum, Predicate.toData_eq_map]
    refine .dict hdistinct ?_
    have hparams := Datum.IsPlain.list (List.forall_mem_map.mpr hconditions)
    have hitems := Datum.IsPlain.list (List.forall_mem_map.mpr hchildren)
    simp [hparams, hitems, Datum.IsPlain.text]

/-- A text whose JSON is a predicate is that predicate. -/
theorem ofJsonText_of_read {text : String} {levels : Nat} {j : Json} {q : Predicate}
    (hread : Json.read text levels = .ok j) (hq : toPredicate allowed (.ofJson j) = .ok q) :
    ofJsonText allowed text levels = .ok q := by
  obtain ⟨hnode, -⟩ := toPredicate_eq_ok.mp hq
  generalize hd : Datum.ofJson j = d at hnode
  cases hnode
  obtain ⟨members, rfl, -⟩ := Datum.ofJson_eq_dict hd
  rw [ofJsonText, hread]
  exact hq

/-- A text that nests too deeply is refused for that. -/
theorem ofJsonText_of_tooDeep {text : String} {levels : Nat} {failure : Json.Failure} {isArray : Bool}
    (hread : Json.read text levels = .error failure) (hdeep : failure.complaint = .tooDeep isArray) :
    ofJsonText allowed text levels = .error (.ofComplaint (.tooDeep isArray)) := by
  rw [ofJsonText, hread]
  simp only [hdeep]

section

variable {p : Predicate} {levels : Nat}

/-- A form that lies within the room on the stack is read from its canonical JSON as a tree that
agrees. -/
theorem exists_ofJsonText_eq_ok (hlogical : p.IsLogical) (hnamed : p.Everywhere Condition.IsNamed)
    (hheight : p.height ≤ maxPredicateDepth) (hplain : p.Everywhere fun c => c.operand.IsPlain)
    (hshallow : p.toDatum.depth ≤ levels + 1) :
    ∃ text q, p.toDatum.canonicalJson = .ok text ∧ ofJsonText none text levels = .ok q ∧
      p.Agrees Datum.Alike q := by
  obtain ⟨j, hkept⟩ := (isPlain_toDatum hnamed hplain).exists_keptBy
  have hread := Json.read_write hkept.readable (hkept.depth_eq.trans_le hshallow)
  have hlevels : p.height + 1 ≤ maxPredicateDepth + 1 := Nat.succ_le_succ hheight
  obtain ⟨hnode, q, hwrites, hagrees⟩ :=
    exists_writes_of_related Datum.isUniform_alike hlogical hnamed hkept.alike hlevels
  exact ⟨_, q, hkept.canonicalJson_eq, ofJsonText_of_read hread (toPredicate_eq_ok.mpr ⟨hnode, hwrites⟩), hagrees⟩

/-- A form that lies deeper is refused for that. -/
theorem exists_ofJsonText_eq_error (hnamed : p.Everywhere Condition.IsNamed)
    (hplain : p.Everywhere fun c => c.operand.IsPlain) (hdeep : levels + 1 < p.toDatum.depth)
    {text : String} (htext : p.toDatum.canonicalJson = .ok text) :
    ∃ isArray, ofJsonText none text levels = .error (.ofComplaint (.tooDeep isArray)) := by
  obtain ⟨j, hkept⟩ := (isPlain_toDatum hnamed hplain).exists_keptBy
  cases hkept.canonicalJson_eq.symm.trans htext
  obtain ⟨failure, isArray, hread, hcomplaint⟩ :=
    Json.read_write_of_deep hkept.readable (hdeep.trans_eq hkept.depth_eq.symm)
  exact ⟨isArray, ofJsonText_of_tooDeep hread hcomplaint⟩

end

/-- A tree of logical nodes with named columns comes back from its written form. If it compares with
plain data and the stack has room for the levels of the form, it also comes back from the canonical
JSON of that form, but for the order of keys in these data; if the stack has not, the reader of JSON
complains of that. A tree with too many nodes inside each other, each of which takes two levels on the
stack to be written, is refused by a query error. -/
theorem toPredicate_toDatum (p : Predicate) (levels : Nat) :
    (p.IsLogical → p.Everywhere Condition.IsNamed → p.height ≤ maxPredicateDepth →
      toPredicate none p.toDatum = .ok p ∧
      ((p.Everywhere fun c => c.operand.IsPlain) →
        (p.toDatum.depth ≤ levels + 1 →
          ∃ text q, p.toDatum.canonicalJson = .ok text ∧ ofJsonText none text levels = .ok q ∧
            p.Agrees Datum.Alike q) ∧
        (levels + 1 < p.toDatum.depth → ∀ text, p.toDatum.canonicalJson = .ok text →
          ∃ isArray, ofJsonText none text levels = .error (.ofComplaint (.tooDeep isArray))))) ∧
      (maxPredicateDepth < p.height → 2 * p.height ≤ levels + 1 →
        ∃ e, toPredicate none p.toDatum = .error e ∧ e.isQueryError = true) := by
  refine ⟨fun hlogical hnamed hheight => ?_, fun hheight _ => exists_error_of_height hheight⟩
  refine ⟨toPredicate_of_height_le hlogical hnamed hheight, fun hplain => ⟨fun hshallow => ?_, ?_⟩⟩
  · exact exists_ofJsonText_eq_ok hlogical hnamed hheight hplain hshallow
  · exact fun hdeep _ htext => exists_ofJsonText_eq_error hnamed hplain hdeep htext

/-- A tree that compares with a dictionary comes back from JSON, and 33 nodes inside each other are
refused, both where the stack has the usual room. -/
theorem toPredicate_toDatum_of_nested :
    (let p := Predicate.node .any
        [⟨.text "a", .equal, .ofFields [("b", .integer 2), ("a", .list [.null])]⟩] [.everything]
      ∃ text q, p.toDatum.canonicalJson = .ok text ∧ ofJsonText none text = .ok q ∧
        p.Agrees Datum.Alike q) ∧
      ∃ e, toPredicate none
        ((fun p => Predicate.node .all [] [p])^[maxPredicateDepth] .everything).toDatum = .error e ∧
        e.isQueryError = true := by
  constructor
  · intro p
    have hlogical : p.IsLogical :=
      .node .or (List.forall_mem_singleton.mpr (.node .and (List.forall_mem_nil _)))
    have hleaf {P : Condition → Prop} : Predicate.everything.Everywhere P :=
      .node (List.forall_mem_nil _) (List.forall_mem_nil _)
    have hnamed : p.Everywhere Condition.IsNamed :=
      .node (List.forall_mem_singleton.mpr ⟨"a", rfl, by decide⟩) (List.forall_mem_singleton.mpr hleaf)
    -- The power is not computed; one digit is enough.
    have hshort : (2 : Int).natAbs < 10 ^ Number.maxDigits :=
      Nat.lt_of_lt_of_le (by decide) (Nat.pow_le_pow_right (by decide) (by decide : 1 ≤ Number.maxDigits))
    have hplain : p.Everywhere fun c => c.operand.IsPlain := by
      refine .node (List.forall_mem_singleton.mpr (.dict (by decide) ?_))
        (List.forall_mem_singleton.mpr hleaf)
      have hlist : (Datum.list [.null]).IsPlain := .list (List.forall_mem_singleton.mpr .null)
      simp [hlist, Datum.IsPlain.integer hshort]
    have hback := (toPredicate_toDatum p Json.usualLevels).1 hlogical hnamed (by decide +kernel)
    exact (hback.2 hplain).1 (by decide +kernel)
  · exact (toPredicate_toDatum _ Json.usualLevels).2 (by decide +kernel) (by decide +kernel)

/-- On a stack with the usual room, a tree that compares with 1200 lists inside each other does not
come back from JSON. -/
theorem toPredicate_toDatum_of_deep :
    let p := Predicate.node .all [⟨.text "a", .equal, .enclosed 1199⟩] []
    p.IsLogical ∧ p.Everywhere Condition.IsNamed ∧ p.height ≤ maxPredicateDepth ∧
      (p.Everywhere fun c => c.operand.IsPlain) ∧
      ∃ text isArray, p.toDatum.canonicalJson = .ok text ∧
        ofJsonText none text = .error (.ofComplaint (.tooDeep isArray)) := by
  intro p
  have hlogical : p.IsLogical := .node .and (List.forall_mem_nil _)
  have hnamed : p.Everywhere Condition.IsNamed :=
    .node (List.forall_mem_singleton.mpr ⟨"a", rfl, by decide⟩) (List.forall_mem_nil _)
  have hplain : p.Everywhere fun c => c.operand.IsPlain :=
    .node (List.forall_mem_singleton.mpr (Datum.isPlain_enclosed 1199)) (List.forall_mem_nil _)
  -- The value alone is deeper than the reader goes.
  have hdeep : Json.usualLevels + 1 < p.toDatum.depth := by
    have hvalue : (Datum.enclosed 1199).depth ≤ p.toDatum.depth := by
      simp [p, Predicate.toDatum, Predicate.toData, Condition.toDatum, Datum.ofFields, Datum.depth,
        Datum.itemsDepth, Datum.entriesDepth, Nat.le_add_right_of_le]
    exact Nat.lt_of_lt_of_le (by decide) ((Datum.depth_enclosed 1199).symm.trans_le hvalue)
  obtain ⟨j, hkept⟩ := (isPlain_toDatum hnamed hplain).exists_keptBy
  obtain ⟨isArray, herror⟩ := exists_ofJsonText_eq_error hnamed hplain hdeep hkept.canonicalJson_eq
  exact ⟨hlogical, hnamed, by decide +kernel, hplain, _, isArray, hkept.canonicalJson_eq, herror⟩

end Form

end RecordStore
