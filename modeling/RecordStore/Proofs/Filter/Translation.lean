import RecordStore.Proofs.Filter.Acceptance
import RecordStore.Proofs.Predicate.Evaluation

/-!
# Translated predicates

The filter of a predicate lets the same records through as the predicate itself. The two are
evaluated differently: a matcher converts values lazily and stops at the first part that settles a
node, where the translation has converted every value and folded the constants of every level. A
translation that succeeds rules out every failure of the matcher (`evaluate_ofNode`), and the
foldings change no answer. The main statement is `matches?_ofPredicate`.
-/

namespace RecordStore.Filter

variable {c : Conversion}

/-- The filter of a condition compares its column with the converted value. -/
theorem ofCondition_eq_ok {condition : Condition} {f : Filter} :
    ofCondition c condition = .ok f ↔
      ∃ v, c.convert condition = .ok v ∧ f = .property condition.column (.known condition.operator) v := by
  rw [ofCondition, Result.bind_eq_ok]
  refine exists_congr fun v => and_congr_right fun _ => ?_
  exact ⟨fun h => (Except.ok.inj h).symm, fun h => congrArg Except.ok h.symm⟩

/-- The filter of a condition can be evaluated on every record, and says what the condition says. -/
theorem evaluate_ofCondition {condition : Condition} {f : Filter}
    (h : ofCondition c condition = .ok f) (r : Record) :
    condition.evaluate c r = .ok (f.accepts r) ∧ f.Evaluates r := by
  obtain ⟨v, hconvert, rfl⟩ := ofCondition_eq_ok.mp h
  -- A column that values were converted for can be looked up.
  obtain ⟨name, hname, -⟩ := Result.bind_eq_ok.mp hconvert
  have hfind : r.find? condition.column =
      .ok (name.bind fun name => Assoc.get? name r.columns) := by
    rw [Record.find?, hname]
    rfl
  obtain ⟨answer, hanswer, hpasses⟩ : ∃ answer, condition.evaluate c r = .ok answer ∧
      (property condition.column (.known condition.operator) v).passes r = .ok answer := by
    rw [Condition.evaluate, passes, hfind]
    cases name.bind fun name => Assoc.get? name r.columns with
    | none => exact ⟨false, rfl, rfl⟩
    | some actual =>
      refine ⟨condition.operator.holds (actual.compare v), ?_, rfl⟩
      -- Only here the matcher converts the value, which the translation has done already.
      change (do return condition.operator.holds (actual.compare (← c.convert condition))) = _
      rw [hconvert]
      rfl
  obtain ⟨hevaluates, haccepts⟩ := evaluates_of_passes_eq hpasses
  rw [hanswer, haccepts]
  exact ⟨rfl, hevaluates⟩

theorem ofNodes_eq_mapM (children : List Predicate) :
    ofNodes c children = children.mapM (ofNode c) := by
  induction children with
  | nil => rfl
  | cons child rest ih => rw [ofNodes, List.mapM_cons, ih]

/-- Parts whose filters can be evaluated and say what the parts say: their answers are those of the
filters, and none of them fails. -/
theorem map_evaluate_eq {α : Type} {translate : α → Except Error Filter}
    {evaluate : α → Except Error Bool} {r : Record} {parts : List α} {filters : List Filter}
    (hfilters : parts.mapM translate = .ok filters)
    (h : ∀ part ∈ parts, ∀ f, translate part = .ok f →
      evaluate part = .ok (f.accepts r) ∧ f.Evaluates r) :
    parts.map evaluate = (filters.map (accepts r)).map .ok ∧ ∀ f ∈ filters, f.Evaluates r := by
  have hrelated := (List.forall₂_and_left _ _).mpr ⟨h, Result.mapM_eq_ok.mp hfilters⟩
  clear h hfilters
  induction hrelated with
  | nil => exact ⟨rfl, fun f hf => nomatch hf⟩
  | cons hpart _ ih =>
    obtain ⟨hmeaning, htranslate⟩ := hpart
    obtain ⟨hanswer, hevaluates⟩ := hmeaning _ htranslate
    obtain ⟨hmap, hothers⟩ := ih
    refine ⟨?_, List.forall_mem_cons.mpr ⟨hevaluates, hothers⟩⟩
    rw [List.map_cons, List.map_cons, List.map_cons, hanswer, hmap]

/-- The filter of a tree can be evaluated on every record, and says what the tree says. -/
theorem evaluate_ofNode {p : Predicate} {f : Filter} (h : ofNode c p = .ok f) (r : Record) :
    p.evaluate c r = .ok (f.accepts r) ∧ f.Evaluates r := by
  induction p using Predicate.induction generalizing f with
  | node connective conditions children ih =>
    obtain ⟨conditionFilters, hconditions, h⟩ := Result.bind_eq_ok.mp h
    obtain ⟨childFilters, hchildren, h⟩ := Result.bind_eq_ok.mp h
    rw [ofNodes_eq_mapM] at hchildren
    obtain ⟨hconditionsMap, hconditionsEvaluate⟩ :=
      map_evaluate_eq hconditions fun _ _ _ hf => evaluate_ofCondition hf r
    obtain ⟨hchildrenMap, hchildrenEvaluate⟩ :=
      map_evaluate_eq hchildren fun child hchild _ hf => ih child hchild hf
    have hevaluates : ∀ part ∈ conditionFilters ++ childFilters, part.Evaluates r :=
      List.forall_mem_append.mpr ⟨hconditionsEvaluate, hchildrenEvaluate⟩
    -- The answers of all parts, none of which fails.
    have hanswers : conditions.map (Condition.evaluate c r) ++ Predicate.evaluations c r children =
        ((conditionFilters ++ childFilters).map (accepts r)).map .ok := by
      rw [Predicate.evaluations_eq_map, hconditionsMap, hchildrenMap, List.map_append,
        List.map_append]
    cases connective with
    | all =>
      obtain rfl := Except.ok.inj h
      obtain ⟨hfolded, haccepts⟩ := evaluates_of_passes_eq (passes_conjunction hevaluates)
      rw [Predicate.evaluate, hanswers, settle_false_map_ok, haccepts, List.all_map]
      exact ⟨rfl, hfolded⟩
    | any =>
      obtain rfl := Except.ok.inj h
      obtain ⟨hfolded, haccepts⟩ := evaluates_of_passes_eq (passes_disjunction hevaluates)
      rw [Predicate.evaluate, hanswers, settle_true_map_ok, haccepts, List.any_map]
      exact ⟨rfl, hfolded⟩
    | foreign typeName shown => cases h

/-- A predicate is translated exactly when it has no parts, which makes it the filter that
everything passes, or when its levels are few enough and its nodes are translated. -/
theorem ofPredicate_eq_ok {p : Predicate} {f : Filter} :
    ofPredicate c p = .ok f ↔
      p.isEmpty = true ∧ f = .everything ∨
        p.isEmpty = false ∧ p.checkDepth = .ok () ∧ ofNode c p = .ok f := by
  rw [ofPredicate]
  cases hempty : p.isEmpty with
  | true =>
    simp only [if_true, true_and, Bool.true_eq_false, false_and, or_false]
    exact ⟨fun h => (Except.ok.inj h).symm, fun h => h ▸ rfl⟩
  | false =>
    simp only [Bool.false_eq_true, if_false, false_and, true_and, false_or]
    refine Result.bind_eq_ok.trans ⟨?_, fun ⟨hdepth, hnode⟩ => ⟨(), hdepth, hnode⟩⟩
    rintro ⟨⟨⟩, hdepth, hnode⟩
    exact ⟨hdepth, hnode⟩

/-- A tree without parts has few enough levels. -/
theorem checkDepth_of_isEmpty {p : Predicate} (h : p.isEmpty) : p.checkDepth = .ok () := by
  rw [Predicate.eq_of_isEmpty h]
  rfl

/-- A translated predicate has few enough levels to be evaluated. -/
theorem checkDepth_of_ofPredicate {p : Predicate} {f : Filter} (h : ofPredicate c p = .ok f) :
    p.checkDepth = .ok () := by
  obtain ⟨hempty, -⟩ | ⟨-, hdepth, -⟩ := ofPredicate_eq_ok.mp h
  · exact checkDepth_of_isEmpty hempty
  · exact hdepth

/-- The filter of a predicate can be evaluated on every record. -/
theorem evaluates_ofPredicate {p : Predicate} {f : Filter} (h : ofPredicate c p = .ok f)
    (r : Record) : f.Evaluates r := by
  obtain ⟨-, rfl⟩ | ⟨-, -, hnode⟩ := ofPredicate_eq_ok.mp h
  · exact evaluates_everything
  · exact (evaluate_ofNode hnode r).2

/-- The filter of a predicate says what the predicate says, if its root is an "and" or has parts. A
root without parts lets everything through, and only an "and" says so. -/
theorem evaluate_ofPredicate {p : Predicate} {f : Filter}
    (hroot : p.connective = .all ∨ p.isEmpty = false) (h : ofPredicate c p = .ok f) (r : Record) :
    p.evaluate c r = .ok (f.accepts r) := by
  obtain ⟨hempty, rfl⟩ | ⟨-, -, hnode⟩ := ofPredicate_eq_ok.mp h
  · have hall : p.connective = .all := hroot.resolve_right (by rw [hempty]; decide)
    rw [Predicate.eq_of_isEmpty hempty, hall]
    rfl
  · exact (evaluate_ofNode hnode r).1

/-- Translating a predicate keeps its meaning. A matcher that is used for any slots in a row answers
each of them like a matcher prepared for it alone, whatever it has remembered by then. If a
predicate whose root is an "and" or has parts has a filter, then on every record the matcher answers
without failing, and so does the filter, with the same answer. -/
theorem matches?_ofPredicate (c : Conversion) (p : Predicate) :
    (∀ m, Matcher.prepare p c = .ok m → ∀ rs, m.testAll rs = rs.map (p.matches? c)) ∧
      (p.connective = .all ∨ p.isEmpty = false → ∀ f, ofPredicate c p = .ok f →
        ∀ r, ∃ answer, p.matches? c (some r) = .ok answer ∧ f.passes r = .ok answer) := by
  constructor
  · intro m hm rs
    obtain ⟨hdepth, rfl⟩ := Matcher.prepare_eq_ok.mp hm
    rw [Matcher.testAll_of_prepares (MatchTree.prepares_ofPredicate c p)]
    exact List.map_congr_left fun r _ => (Predicate.matches?_eq_evaluate? hdepth c r).symm
  · intro hroot f h r
    refine ⟨f.accepts r, ?_, evaluates_ofPredicate h r⟩
    rw [Predicate.matches?_eq_evaluate? (checkDepth_of_ofPredicate h)]
    exact evaluate_ofPredicate hroot h r

/-- An "or" over a condition, an empty "or" and an "and" with an empty "and" in it: the filter keeps
two parts, and the record has the column of the second one only. -/
theorem matches?_ofPredicate_folded :
    let c : Conversion := ⟨.default, none⟩
    let small : Condition := ⟨.text "size", .less, .integer 3⟩
    let named : Condition := ⟨.text "name", .equal, .text "a"⟩
    let p : Predicate :=
      .node .any [small] [.node .any [] [], .node .all [named] [.node .all [] []]]
    let f : Filter := .composite (.known .or) [.property small.column (.known .less) (.integer 3),
      .property named.column (.known .equal) (.string "a")]
    let r : Record := ⟨⟨⟨.string "Row", .string "r", rfl, rfl⟩, []⟩, [("name", .string "a")], []⟩
    Matcher.prepare p c = .ok ⟨c, .ofPredicate p⟩ ∧
      Matcher.testAll ⟨c, .ofPredicate p⟩ [some r, none, some r] =
        [some r, none, some r].map (p.matches? c) ∧
      ofPredicate c p = .ok f ∧
      ∃ answer, p.matches? c (some r) = .ok answer ∧ f.passes r = .ok answer :=
  ⟨rfl, (matches?_ofPredicate _ _).1 _ rfl _, rfl,
    (matches?_ofPredicate _ _).2 (.inr rfl) _ rfl _⟩

end RecordStore.Filter
