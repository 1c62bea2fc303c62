import Mathlib.Data.List.Induction
import Mathlib.Data.List.DropRight
import RecordStore.Predicate.Builder
import RecordStore.Proofs.Predicate.RoundTrip

/-!
# Predicates from brackets

The calls of a builder are read like a text with brackets. What a call that succeeds leaves is a
`Token`; opening and closing a group are the brackets, and the tokens of some `Item`s are those in
which each bracket has its partner. A builder stands for the tokens since its last reset
(`Stands`), so that it builds a predicate exactly if these are the tokens of items, and then the
one with these items (`PredicateBuilder.builds_brackets`).
-/

namespace RecordStore

namespace PredicateBuilder

/-! ## Calls -/

/-- A call of a builder. -/
inductive Call
  /-- Adds the condition of a column, the symbol of a comparison and a value. -/
  | condition (column symbol operand : Datum)
  | predicate (p : Predicate)
  | openGroup (operator : Logical)
  | closeGroup
  | reset
  | build

/-- What a call answers: how it failed, or the predicate that it built, if any. -/
abbrev Reply : Type := Except Error (Option Predicate)

/-- The answer of a step, and the builder behind it. -/
def settled (b : PredicateBuilder) : Except Error PredicateBuilder → Reply × PredicateBuilder
  | .ok after => (.ok none, after)
  | .error e => (.error e, b)

/-- One call. -/
def call (b : PredicateBuilder) : Call → Reply × PredicateBuilder
  | .condition column symbol operand => b.settled (b.addCondition column symbol operand)
  | .predicate p => (.ok none, b.add p)
  | .openGroup operator => (.ok none, b.openGroup operator)
  | .closeGroup => b.settled b.closeGroup
  | .reset => (.ok none, .empty)
  | .build => (b.build.map some, b)

/-- The builder that some calls leave. -/
def after (b : PredicateBuilder) (calls : List Call) : PredicateBuilder :=
  calls.foldl (fun b c => (b.call c).2) b

/-- Some calls, each with its answer. -/
def outcomes (b : PredicateBuilder) : List Call → List (Call × Reply)
  | [] => []
  | c :: rest => (c, (b.call c).1) :: outcomes (b.call c).2 rest

/-- The answers of some calls. -/
def replies (b : PredicateBuilder) (calls : List Call) : List Reply :=
  (b.outcomes calls).map Prod.snd

/-- Calls leave the builder that the later ones make of what the earlier ones left. -/
theorem after_append (b : PredicateBuilder) (calls more : List Call) :
    b.after (calls ++ more) = (b.after calls).after more := List.foldl_append

theorem outcomes_append (b : PredicateBuilder) (calls more : List Call) :
    b.outcomes (calls ++ more) = b.outcomes calls ++ (b.after calls).outcomes more := by
  induction calls generalizing b with
  | nil => rfl
  | cons c rest ih => rw [List.cons_append, outcomes, ih, outcomes, List.cons_append, after]; rfl

theorem replies_append (b : PredicateBuilder) (calls more : List Call) :
    b.replies (calls ++ more) = b.replies calls ++ (b.after calls).replies more := by
  rw [replies, outcomes_append, List.map_append, replies, replies]

/-- A call that fails leaves the builder as it was. -/
theorem call_of_error {b : PredicateBuilder} {c : Call} {e : Error} (h : (b.call c).1 = .error e) :
    b.call c = (.error e, b) := by
  have hsettled {step : Except Error PredicateBuilder} (h : (b.settled step).1 = .error e) :
      b.settled step = (.error e, b) := by
    cases step <;> cases h
    rfl
  cases c with
  | condition column symbol operand => exact hsettled h
  | closeGroup => exact hsettled h
  | build => exact Prod.ext h rfl
  | predicate p => cases h
  | openGroup operator => cases h
  | reset => cases h

/-! ## Brackets -/

/-- What a call leaves that succeeds. -/
inductive Token
  | condition (c : Condition)
  | predicate (p : Predicate)
  | opened (operator : Logical)
  | closed

/-- What is in a group, in the order in which it was put there. -/
inductive Item
  | condition (c : Condition)
  | predicate (p : Predicate)
  | group (operator : Logical) (items : List Item)

/-- The token of a call that succeeds and neither resets nor builds. -/
def Call.token? : Call → Option Token
  | .condition column symbol operand =>
    (Condition.make column symbol operand).toOption.map .condition
  | .predicate p => some (.predicate p)
  | .openGroup operator => some (.opened operator)
  | .closeGroup => some .closed
  | .reset | .build => none

mutual

/-- The tokens of an item: those of a group stand between its brackets. -/
def Item.tokens : Item → List Token
  | .condition c => [.condition c]
  | .predicate p => [.predicate p]
  | .group operator items => .opened operator :: (tokensOf items ++ [.closed])

/-- The tokens of some items, one item behind the other. -/
def tokensOf : List Item → List Token
  | [] => []
  | item :: rest => item.tokens ++ tokensOf rest

end

/-- The condition that an item is. -/
def Item.condition? : Item → Option Condition
  | .condition c => some c
  | _ => none

mutual

/-- The child of a node that an item is. -/
def Item.child? : Item → Option Predicate
  | .condition _ => none
  | .predicate p => some p
  | .group operator items =>
    some (.node (.ofLogical operator) (items.filterMap Item.condition?) (childrenOf items))

/-- The children of a node that some items are. -/
def childrenOf : List Item → List Predicate
  | [] => []
  | item :: rest => item.child?.toList ++ childrenOf rest

end

/-- The group with some items. -/
def groupOf (operator : Logical) (items : List Item) : PredicateGroup :=
  ⟨operator, items.filterMap Item.condition?, childrenOf items⟩

/-- The node of a group with some items. -/
def treeOf (operator : Logical) (items : List Item) : Predicate := (groupOf operator items).toPredicate

/-- Whether a token opens a group. -/
def Token.isOpened : Token → Bool
  | .opened _ => true
  | _ => false

/-- Whether a token closes a group. -/
def Token.isClosed : Token → Bool
  | .closed => true
  | _ => false

/-- Whether a call takes back all calls before it. -/
def Call.isReset : Call → Bool
  | .reset => true
  | _ => false

/-- The calls that succeeded. -/
def succeeded (done : List (Call × Reply)) : List Call :=
  done.filterMap fun outcome => outcome.2.toOption.map fun _ => outcome.1

/-- The tokens of the calls that succeeded on a new builder since the last reset. -/
def standing (calls : List Call) : List Token :=
  ((succeeded (empty.outcomes calls)).rtakeWhile fun c => !c.isReset).filterMap Call.token?

/-- A further call counts among those that succeed if it does. -/
theorem succeeded_append_singleton (calls : List Call) (c : Call) :
    succeeded (empty.outcomes (calls ++ [c])) = succeeded (empty.outcomes calls) ++
      (((empty.after calls).call c).1.toOption.map fun _ => c).toList := by
  rw [outcomes_append, succeeded, List.filterMap_append]
  cases h : ((empty.after calls).call c).1 <;> simp [succeeded, outcomes, h, Except.toOption]

/-- A call that fails leaves the tokens as they are. -/
theorem standing_append_error {calls : List Call} {c : Call} {e : Error}
    (h : ((empty.after calls).call c).1 = .error e) : standing (calls ++ [c]) = standing calls := by
  rw [standing, succeeded_append_singleton, h]
  exact congrArg _ (congrArg _ (List.append_nil _))

/-- A reset takes back all tokens. -/
theorem standing_append_reset (calls : List Call) : standing (calls ++ [.reset]) = [] := by
  rw [standing, succeeded_append_singleton]
  exact congrArg _ (List.rtakeWhile_concat_neg _ _ _ Bool.false_ne_true)

/-- A call that succeeds adds its token. -/
theorem standing_append_ok {calls : List Call} {c : Call} {answer : Option Predicate}
    (h : ((empty.after calls).call c).1 = .ok answer) (hc : c.isReset = false) :
    standing (calls ++ [c]) = standing calls ++ c.token?.toList := by
  have hsince := List.rtakeWhile_concat_pos (fun c : Call => !c.isReset)
    (succeeded (empty.outcomes calls)) c (by simp [hc])
  rw [standing, succeeded_append_singleton, h]
  change ((succeeded (empty.outcomes calls) ++ [c]).rtakeWhile _).filterMap _ = _
  rw [hsince, List.filterMap_append, standing, List.filterMap_cons]
  cases c.token? <;> rfl

/-! ## Standing for tokens -/

/-- A builder stands for some tokens: those of the items in its outermost group, and then each open
group by its bracket and its items. -/
inductive Stands : List Token → PredicateBuilder → Prop
  | closed (items : List Item) : Stands (tokensOf items) ⟨groupOf .and items, []⟩
  | opened {tokens : List Token} {b : PredicateBuilder} (operator : Logical) (items : List Item)
      (outside : Stands tokens b) :
      Stands (tokens ++ .opened operator :: tokensOf items)
        { b with opened := groupOf operator items :: b.opened }

theorem tokensOf_append (items more : List Item) :
    tokensOf (items ++ more) = tokensOf items ++ tokensOf more := by
  induction items with
  | nil => rfl
  | cons item rest ih => rw [List.cons_append, tokensOf, ih, tokensOf, List.append_assoc]

theorem childrenOf_append (items more : List Item) :
    childrenOf (items ++ more) = childrenOf items ++ childrenOf more := by
  induction items with
  | nil => rfl
  | cons item rest ih => rw [List.cons_append, childrenOf, ih, childrenOf, List.append_assoc]

theorem tokensOf_singleton (item : Item) : tokensOf [item] = item.tokens := List.append_nil _

/-- Puts an item into a group. -/
def addItem (g : PredicateGroup) : Item → PredicateGroup
  | .condition c => g.addCondition c
  | .predicate p => g.addChild p
  | .group operator items => g.addChild (treeOf operator items)

/-- A further item is put into the group. -/
theorem groupOf_append (operator : Logical) (items : List Item) (item : Item) :
    groupOf operator (items ++ [item]) = addItem (groupOf operator items) item := by
  rw [groupOf, List.filterMap_append, childrenOf_append]
  cases item with
  | condition c => exact congrArg _ (List.append_nil _)
  | predicate p =>
    exact congrArg (fun conditions => PredicateGroup.mk _ conditions _) (List.append_nil _)
  | group inner items =>
    exact congrArg (fun conditions => PredicateGroup.mk _ conditions _) (List.append_nil _)

/-- An item goes into the innermost open group. -/
theorem Stands.addItem {tokens : List Token} {b : PredicateBuilder} (h : Stands tokens b)
    (item : Item) : Stands (tokens ++ item.tokens) (b.modifyCurrent (addItem · item)) := by
  cases h with
  | closed items =>
    have hmore := Stands.closed (items ++ [item])
    rwa [groupOf_append, tokensOf_append, tokensOf_singleton] at hmore
  | opened operator items outside =>
    have hmore := Stands.opened operator (items ++ [item]) outside
    rw [groupOf_append, tokensOf_append, tokensOf_singleton] at hmore
    rwa [List.append_assoc, List.cons_append]

/-- A call that succeeds, and does not reset the builder, adds its token. -/
theorem Stands.call {tokens : List Token} {b : PredicateBuilder} (h : Stands tokens b) {c : Call}
    (hc : c.isReset = false) {answer : Option Predicate} (hanswer : (b.call c).1 = .ok answer) :
    Stands (tokens ++ c.token?.toList) (b.call c).2 := by
  cases c with
  | condition column symbol operand =>
    cases hmake : Condition.make column symbol operand with
    | error e =>
      simp [PredicateBuilder.call, addCondition, hmake, settled, bind, Except.bind] at hanswer
    | ok condition =>
      have hadd : b.addCondition column symbol operand =
          .ok (b.modifyCurrent (PredicateBuilder.addItem · (.condition condition))) := by
        rw [addCondition, hmake]
        rfl
      rw [Call.token?, hmake, PredicateBuilder.call, hadd]
      exact h.addItem (.condition condition)
  | predicate p => exact h.addItem (.predicate p)
  | openGroup operator => exact .opened operator [] h
  | closeGroup =>
    cases h with
    | closed items => cases hanswer
    | @opened tokens b operator items outside =>
      -- The group and its brackets become an item of the group around it.
      have hitem := outside.addItem (.group operator items)
      rwa [Item.tokens, ← List.cons_append, ← List.append_assoc] at hitem
  | reset => cases hc
  | build =>
    rw [Call.token?, Option.toList_none, List.append_nil]
    exact h

/-- A builder that was new before some calls stands for their tokens. -/
theorem stands_after (calls : List Call) : Stands (standing calls) (empty.after calls) := by
  induction calls using List.reverseRecOn with
  | nil => exact .closed []
  | append_singleton calls c ih =>
    -- The last call is made on what the others left.
    have hafter : empty.after (calls ++ [c]) = ((empty.after calls).call c).2 :=
      after_append empty calls [c]
    rw [hafter]
    cases hanswer : ((empty.after calls).call c).1 with
    | error e =>
      rw [standing_append_error hanswer, call_of_error hanswer]
      exact ih
    | ok answer =>
      cases hc : c.isReset with
      | true =>
        cases c <;> cases hc
        rw [standing_append_reset]
        exact .closed []
      | false =>
        rw [standing_append_ok hanswer hc]
        exact ih.call hc hanswer

/-! ## Partners of brackets -/

/-- The number of groups that were opened. -/
def opens (tokens : List Token) : Nat := tokens.countP Token.isOpened

/-- The number of groups that were closed. -/
def closes (tokens : List Token) : Nat := tokens.countP Token.isClosed

theorem opens_append (tokens more : List Token) :
    opens (tokens ++ more) = opens tokens + opens more := List.countP_append

theorem closes_append (tokens more : List Token) :
    closes (tokens ++ more) = closes tokens + closes more := List.countP_append

theorem opens_opened (operator : Logical) (tokens : List Token) :
    opens (.opened operator :: tokens) = opens tokens + 1 := List.countP_cons_of_pos rfl

theorem closes_opened (operator : Logical) (tokens : List Token) :
    closes (.opened operator :: tokens) = closes tokens := List.countP_cons_of_neg Bool.false_ne_true

mutual

/-- The brackets of an item have partners. -/
theorem Item.opens_tokens : ∀ item : Item, opens item.tokens = closes item.tokens
  | .condition _ | .predicate _ => rfl
  | .group operator items => by
    rw [Item.tokens, opens_opened, closes_opened, opens_append, closes_append, opens_tokensOf items]
    rfl

/-- The brackets of items have partners. -/
theorem opens_tokensOf : ∀ items : List Item, opens (tokensOf items) = closes (tokensOf items)
  | [] => rfl
  | item :: rest => by
    rw [tokensOf, opens_append, closes_append, Item.opens_tokens item, opens_tokensOf rest]

end

/-- The open groups of a builder are those whose brackets have no partner. -/
theorem Stands.opens_eq {tokens : List Token} {b : PredicateBuilder} (h : Stands tokens b) :
    opens tokens = closes tokens + b.opened.length := by
  induction h with
  | closed items => exact opens_tokensOf items
  | opened operator items outside ih =>
    rw [opens_append, closes_append, opens_opened, closes_opened, opens_tokensOf, ih,
      List.length_cons]
    omega

/-- Behind the items of a group stands its closing bracket or nothing. -/
def endsItems (rest : List Token) : Prop := ∀ token ∈ rest.head?, token = .closed

theorem endsItems_nil : endsItems [] := nofun

/-- Items end where a group closes. -/
theorem endsItems_closed (rest : List Token) : endsItems (.closed :: rest) := by
  rintro _ ⟨⟩
  rfl

/-- The first token of an item is no closing bracket. -/
theorem Item.not_endsItems (item : Item) (rest : List Token) : ¬ endsItems (item.tokens ++ rest) := by
  intro h
  cases item <;> cases h _ rfl

mutual

/-- Tokens that begin with an item begin with no other one. -/
theorem Item.tokens_inj : ∀ (item other : Item) {rest more : List Token},
    item.tokens ++ rest = other.tokens ++ more → item = other ∧ rest = more
  | .condition c, .condition d, rest, more, h => by
    cases h
    exact ⟨rfl, rfl⟩
  | .predicate p, .predicate q, rest, more, h => by
    cases h
    exact ⟨rfl, rfl⟩
  | .group operator items, .group other others, rest, more, h => by
    simp only [Item.tokens, List.cons_append, List.append_assoc, List.nil_append] at h
    obtain ⟨⟨⟩, hinside⟩ := List.cons.inj h
    obtain ⟨rfl, hrest⟩ :=
      tokensOf_inj items others (endsItems_closed rest) (endsItems_closed more) hinside
    exact ⟨rfl, (List.cons.inj hrest).2⟩
  | .condition _, .predicate _, _, _, h | .condition _, .group _ _, _, _, h
  | .predicate _, .condition _, _, _, h | .predicate _, .group _ _, _, _, h
  | .group _ _, .condition _, _, _, h | .group _ _, .predicate _, _, _, h => by cases h

/-- Tokens are those of no more than one list of items. -/
theorem tokensOf_inj : ∀ (items others : List Item) {rest more : List Token}, endsItems rest →
    endsItems more → tokensOf items ++ rest = tokensOf others ++ more → items = others ∧ rest = more
  | [], [], _, _, _, _, h => ⟨rfl, h⟩
  | [], other :: others, rest, more, hrest, _, h => by
    rw [tokensOf, tokensOf, List.nil_append, List.append_assoc] at h
    exact absurd (h ▸ hrest) (other.not_endsItems _)
  | item :: items, [], rest, more, _, hmore, h => by
    rw [tokensOf, tokensOf, List.nil_append, List.append_assoc] at h
    exact absurd (h ▸ hmore) (item.not_endsItems _)
  | item :: items, other :: others, rest, more, hrest, hmore, h => by
    rw [tokensOf, tokensOf, List.append_assoc, List.append_assoc] at h
    obtain ⟨rfl, hothers⟩ := Item.tokens_inj item other h
    obtain ⟨rfl, rfl⟩ := tokensOf_inj items others hrest hmore hothers
    exact ⟨rfl, rfl⟩

end

/-- Brackets are read in one way only. -/
theorem eq_of_tokensOf_eq {items others : List Item} (h : tokensOf items = tokensOf others) :
    items = others := by
  refine (tokensOf_inj items others endsItems_nil endsItems_nil ?_).1
  rw [List.append_nil, List.append_nil, h]

/-! ## Building -/

variable {tokens : List Token} {b : PredicateBuilder}

/-- A builder builds exactly if the brackets have partners, and else says how many groups are open. -/
theorem Stands.build_eq (h : Stands tokens b) :
    if opens tokens = closes tokens then ∃ items, tokens = tokensOf items ∧ b.build = .ok (treeOf .and items)
    else b.build = .error (.badValue (.openGroups (opens tokens - closes tokens))) := by
  have hopens := h.opens_eq
  cases h with
  | closed items =>
    rw [if_pos (opens_tokensOf items)]
    exact ⟨items, rfl, rfl⟩
  | opened operator items outside =>
    rw [List.length_cons] at hopens
    rw [if_neg (by omega), hopens, Nat.add_sub_cancel_left]
    rfl

/-- What is built is the tree of the items whose tokens the builder stands for. -/
theorem Stands.build_eq_ok (h : Stands tokens b) {p : Predicate} :
    b.build = .ok p ↔ ∃ items, tokens = tokensOf items ∧ p = treeOf .and items := by
  have hbuild := h.build_eq
  split at hbuild
  · obtain ⟨items, rfl, hitems⟩ := hbuild
    rw [hitems]
    constructor
    · rintro ⟨⟩
      exact ⟨items, rfl, rfl⟩
    · rintro ⟨others, hothers, rfl⟩
      rw [eq_of_tokensOf_eq hothers]
  · next hopen =>
    rw [hbuild]
    refine iff_of_false nofun ?_
    rintro ⟨items, rfl, -⟩
    exact hopen (opens_tokensOf items)

/-- A group can be closed as long as one is open. -/
theorem Stands.closeGroup_eq_error (h : Stands tokens b) :
    (b.call .closeGroup).1 = .error (.badValue .noOpenGroup) ↔ opens tokens = closes tokens := by
  have hopens := h.opens_eq
  cases h with
  | closed items => exact iff_of_true rfl (opens_tokensOf items)
  | opened operator items outside =>
    rw [List.length_cons] at hopens
    exact iff_of_false nofun (by omega)

/-! ## Replaying -/

/-- The call that adds a condition. -/
def Call.ofCondition (c : Condition) : Call :=
  .condition c.column (.text c.operator.symbol) c.operand

mutual

/-- The calls that put what is in a node into the innermost open group: its conditions, and then
each of its children as a group. -/
def replay : Predicate → List Call
  | .node _ conditions children => conditions.map .ofCondition ++ replayAll children

/-- The calls that add each of some trees as a group. -/
def replayAll : List Predicate → List Call
  | [] => []
  | child :: rest => .openGroup child.connective.logical :: (replay child ++ .closeGroup :: replayAll rest)

end

/-- Some calls all succeed without building anything, and leave this builder. -/
structure Leads (b : PredicateBuilder) (calls : List Call) (after : PredicateBuilder) : Prop where
  replies_eq : b.replies calls = calls.map fun _ => .ok none
  after_eq : b.after calls = after

theorem Leads.nil (b : PredicateBuilder) : Leads b [] b := ⟨rfl, rfl⟩

/-- Calls that all succeed are followed by others. -/
theorem Leads.append {b' b'' : PredicateBuilder} {calls more : List Call} (h : Leads b calls b')
    (hmore : Leads b' more b'') : Leads b (calls ++ more) b'' where
  replies_eq := by
    rw [replies_append, h.replies_eq, h.after_eq, hmore.replies_eq, List.map_append]
  after_eq := by rw [after_append, h.after_eq, hmore.after_eq]

/-- A call that succeeds is followed by others. -/
theorem Leads.cons {b' b'' : PredicateBuilder} {c : Call} {calls : List Call}
    (hc : b.call c = (.ok none, b')) (h : Leads b' calls b'') : Leads b (c :: calls) b'' := by
  have hfirst : Leads b [c] b' := by
    constructor
    · simp [replies, outcomes, hc]
    · simp [after, hc]
  exact hfirst.append h

/-- The conditions and children of a node, behind those that are in a group. -/
def addParts (conditions : List Condition) (children : List Predicate) (g : PredicateGroup) :
    PredicateGroup :=
  { g with conditions := g.conditions ++ conditions, children := g.children ++ children }

/-- Two changes of the innermost group are one. -/
theorem modifyCurrent_modifyCurrent (b : PredicateBuilder) (f g : PredicateGroup → PredicateGroup) :
    (b.modifyCurrent f).modifyCurrent g = b.modifyCurrent (g ∘ f) := by
  obtain ⟨root, opened⟩ := b
  cases opened <;> rfl

/-- No parts change nothing. -/
theorem modifyCurrent_addParts_nil (b : PredicateBuilder) : b.modifyCurrent (addParts [] []) = b := by
  obtain ⟨root, opened⟩ := b
  cases opened <;> simp [modifyCurrent, addParts]

/-- A condition of a column with a name can be added. -/
theorem call_ofCondition {c : Condition} (hc : c.column.isTruthy = true) (b : PredicateBuilder) :
    b.call (.ofCondition c) = (.ok none, b.modifyCurrent (addParts [c] [])) := by
  have hsymbol : Comparison.ofSymbol? c.operator.symbol = some c.operator :=
    Comparison.ofSymbol?_eq_some.mpr rfl
  have hmake : Condition.make c.column (.text c.operator.symbol) c.operand = .ok c := by
    simp [Condition.make, hc, hsymbol]
  have hadd : b.addCondition c.column (.text c.operator.symbol) c.operand =
      .ok (b.modifyCurrent (·.addCondition c)) := by
    rw [addCondition, hmake]
    rfl
  have hsame : (fun g : PredicateGroup => g.addCondition c) = addParts [c] [] := by
    funext g
    simp [PredicateGroup.addCondition, addParts]
  rw [Call.ofCondition, call, hadd, hsame]
  rfl

/-- Conditions on columns with names are added to the innermost group. -/
theorem leads_conditions {conditions : List Condition}
    (h : ∀ c ∈ conditions, c.column.isTruthy = true) (b : PredicateBuilder) :
    Leads b (conditions.map .ofCondition) (b.modifyCurrent (addParts conditions [])) := by
  induction conditions generalizing b with
  | nil =>
    rw [modifyCurrent_addParts_nil]
    exact .nil b
  | cons c rest ih =>
    obtain ⟨hc, hrest⟩ := List.forall_mem_cons.mp h
    have hlater := ih hrest (b.modifyCurrent (addParts [c] []))
    have hsame : addParts rest [] ∘ addParts [c] [] = addParts (c :: rest) [] := by
      funext g
      simp [addParts]
    rw [modifyCurrent_modifyCurrent, hsame] at hlater
    exact .cons (call_ofCondition hc b) hlater

/-- Opening a group, replaying a child in it and closing the group adds the child. -/
theorem leads_child {child : Predicate} (hlogical : child.IsLogical)
    (h : ∀ b : PredicateBuilder,
      Leads b (replay child) (b.modifyCurrent (addParts child.conditions child.children)))
    (b : PredicateBuilder) :
    Leads b (.openGroup child.connective.logical :: (replay child ++ [.closeGroup]))
      (b.modifyCurrent (addParts [] [child])) := by
  obtain ⟨operator, hnodes⟩ := hlogical
  next conditions children =>
  have hlogical : (Connective.ofLogical operator).logical = operator := by cases operator <;> rfl
  rw [Predicate.connective, hlogical]
  refine .cons rfl ((h _).append (.cons ?_ (.nil _)))
  have hsame : (fun g : PredicateGroup => g.addChild (.node (.ofLogical operator) conditions children)) =
      addParts [] [.node (.ofLogical operator) conditions children] := by
    funext g
    simp [PredicateGroup.addChild, addParts]
  rw [← hsame]
  rfl

/-- Children that can be replayed are added to the innermost group. -/
theorem leads_children {children : List Predicate} (hlogical : ∀ child ∈ children, child.IsLogical)
    (h : ∀ child ∈ children, ∀ b : PredicateBuilder,
      Leads b (replay child) (b.modifyCurrent (addParts child.conditions child.children)))
    (b : PredicateBuilder) :
    Leads b (replayAll children) (b.modifyCurrent (addParts [] children)) := by
  induction children generalizing b with
  | nil =>
    rw [modifyCurrent_addParts_nil]
    exact .nil b
  | cons child rest ih =>
    obtain ⟨hchild, hrest⟩ := List.forall_mem_cons.mp h
    obtain ⟨hfirst, hlater⟩ := List.forall_mem_cons.mp hlogical
    have hmore := ih hlater hrest (b.modifyCurrent (addParts [] [child]))
    have hsame : addParts [] rest ∘ addParts [] [child] = addParts [] (child :: rest) := by
      funext g
      simp [addParts]
    rw [modifyCurrent_modifyCurrent, hsame] at hmore
    have hboth := (leads_child hfirst hchild b).append hmore
    rwa [List.cons_append, List.append_assoc, List.singleton_append] at hboth

/-- Replaying a tree puts the parts of its root into the innermost open group. -/
theorem leads_replay {p : Predicate} (hlogical : p.IsLogical)
    (hcolumns : p.Everywhere fun c => c.column.isTruthy = true) (b : PredicateBuilder) :
    Leads b (replay p) (b.modifyCurrent (addParts p.conditions p.children)) := by
  induction p using Predicate.induction generalizing b with
  | node connective conditions children ih =>
    obtain ⟨operator, hnodes⟩ := hlogical
    obtain ⟨hown, hbelow⟩ := hcolumns
    have hchildren := leads_children hnodes (fun child hc => ih child hc (hnodes child hc) (hbelow child hc))
      (b.modifyCurrent (addParts conditions []))
    have hsame : addParts [] children ∘ addParts conditions [] = addParts conditions children := by
      funext g
      simp [addParts]
    rw [modifyCurrent_modifyCurrent, hsame] at hchildren
    exact (leads_conditions hown b).append hchildren

/-- A tree whose root is an "and" is built from its own calls. -/
theorem replies_replay {p : Predicate} (hlogical : p.IsLogical) (hroot : p.connective = .all)
    (hcolumns : p.Everywhere fun c => c.column.isTruthy = true) :
    empty.replies (replay p ++ [.build]) = ((replay p).map fun _ => .ok none) ++ [.ok (some p)] := by
  have hleads := leads_replay hlogical hcolumns empty
  rw [replies_append, hleads.replies_eq, hleads.after_eq]
  obtain ⟨connective, conditions, children⟩ := p
  cases hroot
  rfl

/-- A call that fails changes no later answer. A predicate can be built exactly if as many groups
were closed as were opened by the calls that succeeded since the last reset; it is the "and" of the
items whose tokens those calls left, with the conditions and the children of each node in the order
of their calls, and these items are told by the tokens. Otherwise the failure tells how many groups
are open, and only if none is, closing one fails. And every tree of logical nodes below an "and" is
built from its own calls. -/
theorem builds_brackets :
    (∀ (calls later : List Call) (c : Call) (e : Error), ((empty.after calls).call c).1 = .error e →
      ∃ rest, empty.replies (calls ++ later) = empty.replies calls ++ rest ∧
        empty.replies (calls ++ c :: later) = empty.replies calls ++ .error e :: rest) ∧
      (∀ calls : List Call,
        let b := empty.after calls
        let tokens := standing calls
        ((∃ p, b.build = .ok p) ↔ opens tokens = closes tokens) ∧
          (∀ p, b.build = .ok p ↔ ∃ items, tokens = tokensOf items ∧ p = treeOf .and items) ∧
          (opens tokens ≠ closes tokens →
            b.build = .error (.badValue (.openGroups (opens tokens - closes tokens)))) ∧
          ((b.call .closeGroup).1 = .error (.badValue .noOpenGroup) ↔ opens tokens = closes tokens)) ∧
      ∀ p : Predicate, p.IsLogical → p.connective = .all →
        (p.Everywhere fun c => c.column.isTruthy = true) →
          empty.replies (replay p ++ [.build]) =
            ((replay p).map fun _ => .ok none) ++ [.ok (some p)] := by
  refine ⟨fun calls later c e h => ?_, fun calls => ?_, fun p => replies_replay⟩
  · refine ⟨(empty.after calls).replies later, replies_append .., ?_⟩
    rw [replies_append, replies, replies, outcomes, call_of_error h]
    rfl
  · intro b tokens
    -- What the builder stands for decides all questions about building.
    have hstands := stands_after calls
    refine ⟨⟨?_, fun hclosed => ?_⟩, fun p => hstands.build_eq_ok, fun hopen => ?_,
      hstands.closeGroup_eq_error⟩
    · rintro ⟨p, hp⟩
      obtain ⟨items, hitems, -⟩ := hstands.build_eq_ok.mp hp
      rw [show tokens = tokensOf items from hitems, opens_tokensOf]
    · have hbuild := hstands.build_eq
      rw [if_pos hclosed] at hbuild
      obtain ⟨items, -, hp⟩ := hbuild
      exact ⟨_, hp⟩
    · have hbuild := hstands.build_eq
      rwa [if_neg hopen] at hbuild

/-- A predicate that is asked for while a group is open, and a tree with a group in a group. -/
theorem builds_brackets_nested :
    (let calls : List Call := [.openGroup .or, .condition (.text "a") (.text "=") .null]
      let later : List Call := [.closeGroup, .build]
      ((empty.after calls).call .build).1 = .error (.badValue (.openGroups 1)) ∧
        ∃ rest, empty.replies (calls ++ later) = empty.replies calls ++ rest ∧
          empty.replies (calls ++ .build :: later) =
            empty.replies calls ++ .error (.badValue (.openGroups 1)) :: rest) ∧
      let p : Predicate := .node .all [⟨.text "a", .equal, .null⟩] [.node .any [] [.everything]]
      p.IsLogical ∧ (p.Everywhere fun c => c.column.isTruthy = true) ∧
        empty.replies (replay p ++ [.build]) =
          [.ok none, .ok none, .ok none, .ok none, .ok none, .ok (some p)] := by
  constructor
  · exact ⟨rfl, builds_brackets.1 _ _ _ _ rfl⟩
  · intro p
    have hleaf {P : Condition → Prop} : Predicate.everything.Everywhere P :=
      .node (List.forall_mem_nil _) (List.forall_mem_nil _)
    have hlogical : p.IsLogical := .node .and (List.forall_mem_singleton.mpr
      (.node .or (List.forall_mem_singleton.mpr (.node .and (List.forall_mem_nil _)))))
    have hcolumns : p.Everywhere fun c => c.column.isTruthy = true :=
      .node (List.forall_mem_singleton.mpr rfl)
        (List.forall_mem_singleton.mpr (.node (List.forall_mem_nil _) (List.forall_mem_singleton.mpr hleaf)))
    exact ⟨hlogical, hcolumns, builds_brackets.2.2 p hlogical rfl hcolumns⟩

end PredicateBuilder

end RecordStore
