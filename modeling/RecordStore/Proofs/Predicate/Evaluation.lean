import Mathlib.Data.List.Forall2
import RecordStore.Predicate.Matcher
import RecordStore.Proofs.Result

/-!
# The meaning of predicates

What a predicate says of a record, without the values that a matcher remembers: `evaluate` converts
the value of a condition wherever it is needed. A `Matcher` answers what `evaluate` answers and
hands on a matcher that does the same (`test_of_prepares`), so that one matcher used for any records
in a row answers each of them like a matcher of its own (`testAll_of_prepares`).
-/

namespace RecordStore

/-- The answer of parts that are asked in order until one answers `stop` or fails. -/
def settle (stop : Bool) : List (Except Error Bool) → Except Error Bool
  | [] => .ok (!stop)
  | .error e :: _ => .error e
  | .ok answer :: rest => if answer = stop then .ok stop else settle stop rest

/-- Parts before which all others answer `!stop` are asked in turn. -/
theorem settle_append (stop : Bool) (front back : List (Except Error Bool)) :
    settle stop (front ++ back) =
      match settle stop front with
      | .ok answer => if answer = stop then .ok stop else settle stop back
      | .error e => .error e := by
  induction front with
  | nil => cases stop <;> rfl
  | cons part front ih =>
    cases part with
    | error e => rfl
    | ok answer =>
      rw [List.cons_append, settle, settle]
      by_cases h : answer = stop
      · simp [h]
      · rw [if_neg h, if_neg h, ih]

/-- Parts that all answer without failing settle on `false` unless all of them hold. -/
theorem settle_false_map_ok (answers : List Bool) :
    settle false (answers.map .ok) = .ok (answers.all id) := by
  induction answers with
  | nil => rfl
  | cons answer rest ih => cases answer <;> simp [settle, ih]

/-- Parts that all answer without failing settle on `true` if one of them holds. -/
theorem settle_true_map_ok (answers : List Bool) :
    settle true (answers.map .ok) = .ok (answers.any id) := by
  induction answers with
  | nil => rfl
  | cons answer rest ih => cases answer <;> simp [settle, ih]

/-- What a condition says of a record. Its value is converted only if the record has the column. -/
def Condition.evaluate (c : Conversion) (r : Record) (condition : Condition) :
    Except Error Bool := do
  match ← r.find? condition.column with
  | none => return false
  | some actual => return condition.operator.holds (actual.compare (← c.convert condition))

namespace Predicate

/-- A property of all predicates follows from its passing from the children of a node to the
node. -/
@[elab_as_elim]
theorem induction {motive : Predicate → Prop}
    (node : ∀ connective conditions children, (∀ child ∈ children, motive child) →
      motive (.node connective conditions children)) (p : Predicate) : motive p :=
  Predicate.rec (motive_2 := fun children => ∀ child ∈ children, motive child) node
    (fun _ h => absurd h List.not_mem_nil)
    (fun _ _ first rest => List.forall_mem_cons.mpr ⟨first, rest⟩) p

/-- A node without parts is told by its connective. -/
theorem eq_of_isEmpty {p : Predicate} (h : p.isEmpty = true) : p = .node p.connective [] [] := by
  obtain ⟨connective, conditions, children⟩ := p
  obtain ⟨hconditions, hchildren⟩ := Bool.and_eq_true_iff.mp h
  obtain rfl := List.isEmpty_iff.mp hconditions
  obtain rfl := List.isEmpty_iff.mp hchildren
  rfl

mutual

/-- What a predicate says of a record: conditions first, then children, no further than the answer
needs. -/
def evaluate (c : Conversion) (r : Record) : Predicate → Except Error Bool
  | .node .all conditions children =>
    settle false (conditions.map (Condition.evaluate c r) ++ evaluations c r children)
  | .node .any conditions children =>
    settle true (conditions.map (Condition.evaluate c r) ++ evaluations c r children)
  | .node (.foreign typeName _) _ _ => .error (Connective.unknown typeName)

/-- What each of some trees says of a record. -/
def evaluations (c : Conversion) (r : Record) : List Predicate → List (Except Error Bool)
  | [] => []
  | child :: rest => evaluate c r child :: evaluations c r rest

end

theorem evaluations_eq_map (c : Conversion) (r : Record) (children : List Predicate) :
    evaluations c r children = children.map (evaluate c r) := by
  induction children with
  | nil => rfl
  | cons child rest ih => rw [evaluations, ih, List.map_cons]

end Predicate

/-! ## Prepared predicates -/

/-- Whether a prepared condition is that condition, and remembers at most the value that the
condition's own value is converted to. -/
structure PreparedCondition.Prepares (c : Conversion) (p : PreparedCondition)
    (condition : Condition) : Prop where
  condition_eq : p.condition = condition
  converted_eq : ∀ v, p.converted = some v → c.convert condition = .ok v

namespace MatchTree

mutual

/-- Whether a tree is that predicate, with at most the values remembered that its conditions' own
values are converted to. -/
def Prepares (c : Conversion) : MatchTree → Predicate → Prop
  | .node connective prepared trees, .node connective' conditions children =>
    connective = connective' ∧
      List.Forall₂ (PreparedCondition.Prepares c) prepared conditions ∧
      AllPrepare c trees children

/-- Whether some trees are those predicates, one by one. -/
def AllPrepare (c : Conversion) : List MatchTree → List Predicate → Prop
  | [], [] => True
  | tree :: trees, child :: children => Prepares c tree child ∧ AllPrepare c trees children
  | _, _ => False

end

/-- Prepared children are those of the predicate, one by one. -/
theorem allPrepare_iff {c : Conversion} {trees : List MatchTree} {children : List Predicate} :
    AllPrepare c trees children ↔ List.Forall₂ (Prepares c) trees children := by
  induction trees generalizing children with
  | nil => cases children <;> simp [AllPrepare]
  | cons tree trees ih => cases children <;> simp [AllPrepare, ih]

theorem ofPredicates_eq_map (children : List Predicate) :
    ofPredicates children = children.map ofPredicate := by
  induction children with
  | nil => rfl
  | cons child rest ih => rw [ofPredicates, ih, List.map_cons]

/-- A tree that has not been used yet remembers nothing. -/
theorem prepares_ofPredicate (c : Conversion) (p : Predicate) : Prepares c (ofPredicate p) p := by
  induction p using Predicate.induction with
  | node connective conditions children ih =>
    rw [ofPredicate, Prepares, allPrepare_iff, ofPredicates_eq_map]
    refine ⟨rfl, ?_, ?_⟩
    · rw [List.forall₂_map_left_iff, List.forall₂_same]
      exact fun condition _ => ⟨rfl, fun v h => nomatch h⟩
    · rw [List.forall₂_map_left_iff, List.forall₂_same]
      exact ih

end MatchTree

/-! ## Answers of a matcher -/

/-- Whether asking a part gives the answer of what it stands for, and hands on a part that stands
for the same. -/
def Answer.Settles {α β : Type} (answer : Answer α) (expected : Except Error Bool)
    (standsFor : α → β → Prop) (b : β) : Prop :=
  answer.1 = expected ∧ standsFor answer.2 b

/-- A prepared condition answers like its condition and remembers the value it has converted. -/
theorem PreparedCondition.test_of_prepares {c : Conversion} (r : Record) {p : PreparedCondition}
    {condition : Condition} (h : p.Prepares c condition) :
    (p.test c r).Settles (condition.evaluate c r) (Prepares c) condition := by
  obtain ⟨rfl, hconverted⟩ := h
  unfold test Condition.evaluate
  cases hfind : r.find? p.condition.column with
  | error e => exact ⟨rfl, rfl, hconverted⟩
  | ok found =>
    cases found with
    | none => exact ⟨rfl, rfl, hconverted⟩
    | some actual =>
      -- A value that is remembered is the one that would be converted again.
      cases hremembered : p.converted with
      | some v =>
        simp only [hconverted v hremembered]
        exact ⟨rfl, rfl, hconverted⟩
      | none =>
        cases hconvert : c.convert p.condition with
        | error e => exact ⟨rfl, rfl, hconverted⟩
        | ok v =>
          refine ⟨rfl, rfl, fun v' h => ?_⟩
          rw [hconvert, Option.some.inj h]

/-- Parts that are asked in turn settle like what they stand for. -/
theorem testUntil_settles {α β : Type} (stop : Bool) {test : α → Answer α}
    {standsFor : α → β → Prop} {expected : β → Except Error Bool} {parts : List α} {bs : List β}
    (hparts : List.Forall₂ standsFor parts bs)
    (htest : ∀ b ∈ bs, ∀ a, standsFor a b → (test a).Settles (expected b) standsFor b) :
    (testUntil stop test parts).Settles (settle stop (bs.map expected))
      (List.Forall₂ standsFor) bs := by
  induction hparts with
  | nil => exact ⟨rfl, .nil⟩
  | @cons part b parts bs hpart hrest ih =>
    obtain ⟨hb, hbs⟩ := List.forall_mem_cons.mp htest
    obtain ⟨hanswer, hnext⟩ := hb part hpart
    obtain ⟨hothers, hothersNext⟩ := ih hbs
    -- The part that was asked is handed on in any case, the ones behind it as far as they were.
    rw [testUntil, List.map_cons, ← hanswer]
    rcases htested : test part with ⟨_ | answer, next⟩
    all_goals rw [htested] at hnext
    · exact ⟨rfl, .cons hnext hrest⟩
    · rw [settle]
      by_cases hstop : answer = stop
      · simp only [if_pos hstop]
        exact ⟨rfl, .cons hnext hrest⟩
      · simp only [if_neg hstop]
        exact ⟨hothers, .cons hnext hothersNext⟩

namespace MatchTree

/-- Children are tested until one of them decides. -/
theorem testChildren_eq (c : Conversion) (r : Record) (stop : Bool) (trees : List MatchTree) :
    testChildren c r stop trees = testUntil stop (test c r) trees := by
  induction trees with
  | nil => rfl
  | cons tree rest ih =>
    rw [testChildren, testUntil, ih]
    rcases test c r tree with ⟨_ | answer, child⟩ <;> rfl

/-- A tree answers like its predicate and goes on standing for it. -/
theorem test_of_prepares {c : Conversion} (r : Record) {p : Predicate} {tree : MatchTree}
    (h : tree.Prepares c p) : (tree.test c r).Settles (p.evaluate c r) (Prepares c) p := by
  induction p using Predicate.induction generalizing tree with
  | node connective conditions children ih =>
    obtain ⟨connective', prepared, trees⟩ := tree
    obtain ⟨rfl, hconditions, hchildren⟩ := h
    -- What the conditions and, if need be, the children answer.
    have hparts := fun stop => testUntil_settles stop hconditions fun condition _ prepared hp =>
      PreparedCondition.test_of_prepares r hp
    have hrest := fun stop => testUntil_settles stop (allPrepare_iff.mp hchildren)
      fun child hchild tree htree => ih child hchild htree
    simp only [← testChildren_eq, ← Predicate.evaluations_eq_map] at hrest
    cases connective' with
    | all =>
      obtain ⟨hanswer, hnext⟩ := hparts false
      obtain ⟨hothers, hothersNext⟩ := hrest false
      rw [test, Predicate.evaluate, settle_append, ← hanswer, ← hothers]
      rcases htested : testUntil false (PreparedCondition.test c r) prepared with
        ⟨_ | _ | _, next⟩
      all_goals rw [htested] at hnext
      · exact ⟨rfl, rfl, hnext, hchildren⟩
      · exact ⟨rfl, rfl, hnext, hchildren⟩
      · exact ⟨rfl, rfl, hnext, allPrepare_iff.mpr hothersNext⟩
    | any =>
      obtain ⟨hanswer, hnext⟩ := hparts true
      obtain ⟨hothers, hothersNext⟩ := hrest true
      rw [test, Predicate.evaluate, settle_append, ← hanswer, ← hothers]
      rcases htested : testUntil true (PreparedCondition.test c r) prepared with
        ⟨_ | _ | _, next⟩
      all_goals rw [htested] at hnext
      · exact ⟨rfl, rfl, hnext, hchildren⟩
      · exact ⟨rfl, rfl, hnext, allPrepare_iff.mpr hothersNext⟩
      · exact ⟨rfl, rfl, hnext, hchildren⟩
    -- A foreign node fails before any of its parts is asked.
    | foreign typeName shown => exact ⟨rfl, rfl, hconditions, hchildren⟩

end MatchTree

/-- What a predicate says of a slot; an empty one never matches. -/
def Predicate.evaluate? (p : Predicate) (c : Conversion) : Option Record → Except Error Bool
  | none => .ok false
  | some r => p.evaluate c r

namespace Matcher

/-- A predicate is prepared exactly when it has no more levels than allowed. -/
theorem prepare_eq_ok {p : Predicate} {c : Conversion} {m : Matcher} :
    prepare p c = .ok m ↔ p.checkDepth = .ok () ∧ m = ⟨c, .ofPredicate p⟩ := by
  rw [prepare, Result.bind_eq_ok]
  constructor
  · rintro ⟨⟨⟩, hdepth, h⟩
    exact ⟨hdepth, (Except.ok.inj h).symm⟩
  · rintro ⟨hdepth, rfl⟩
    exact ⟨(), hdepth, rfl⟩

/-- A matcher that stands for a predicate answers like it, and the matcher that it hands on stands
for it too. -/
theorem test_of_prepares {c : Conversion} {tree : MatchTree} {p : Predicate}
    (h : tree.Prepares c p) (r : Option Record) :
    ∃ next, next.Prepares c p ∧ test ⟨c, tree⟩ r = (p.evaluate? c r, ⟨c, next⟩) := by
  cases r with
  | none => exact ⟨tree, h, rfl⟩
  | some r =>
    obtain ⟨hanswer, hnext⟩ := MatchTree.test_of_prepares r h
    refine ⟨(tree.test c r).2, hnext, ?_⟩
    rw [Predicate.evaluate?, ← hanswer]
    rfl

/-- A matcher that is handed on from record to record answers each of them like its predicate. -/
theorem testAll_of_prepares {c : Conversion} {tree : MatchTree} {p : Predicate}
    (h : tree.Prepares c p) (rs : List (Option Record)) :
    testAll ⟨c, tree⟩ rs = rs.map (p.evaluate? c) := by
  induction rs generalizing tree with
  | nil => rfl
  | cons r rest ih =>
    obtain ⟨next, hnext, htest⟩ := test_of_prepares h r
    rw [testAll, htest, List.map_cons, ← ih hnext]

end Matcher

/-- A predicate that is prepared for one slot alone says of it what it means. -/
theorem Predicate.matches?_eq_evaluate? {p : Predicate} (hdepth : p.checkDepth = .ok ())
    (c : Conversion) (r : Option Record) : p.matches? c r = p.evaluate? c r := by
  obtain ⟨next, -, htest⟩ := Matcher.test_of_prepares (MatchTree.prepares_ofPredicate c p) r
  rw [matches?, Matcher.prepare_eq_ok.mpr ⟨hdepth, rfl⟩]
  change (do return ← (Matcher.test ⟨c, .ofPredicate p⟩ r).1) = _
  rw [htest]

end RecordStore
