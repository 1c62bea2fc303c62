import RecordStore.Proofs.ColumnType
import RecordStore.Proofs.Filter.Folding
import RecordStore.Proofs.Model.Encoding
import RecordStore.Proofs.Ordering
import RecordStore.Proofs.Predicate.Grammar

/-!
# Columns and what they are asked for

A stored column and a value that the column is compared with are converted by the same converter, that
of the column's type. With the built-in converters the two are therefore of one kind, or one of them is
null (`Model.columns_of_one_kind`). And with any converters a record is found by what its own columns
are read from it as, and the values of any other record stand below, at or above its own
(`Model.found_by_own_values`).
-/

namespace RecordStore

/-- A value for a declared column is converted by the converter of the column's type. -/
theorem Conversion.convert_declared {registry : Registry} {layout : Layout} {name : String} {c : Column}
    (hcolumn : layout.column? name = some c) {condition : Condition}
    (hcondition : condition.column = .text name) :
    convert ⟨registry, some layout⟩ condition = registry.toValue condition.operand (some c.type) := by
  have htype : columnType? ⟨registry, some layout⟩ name = some c.type := by
    change (layout.column? name).map Column.type = _
    rw [hcolumn]
    rfl
  rw [convert, hcondition, ← htype]
  rfl

/-! ## One kind -/

/-- The condition is on a declared column, and its value is no ready backend value. -/
def Condition.IsDeclared (layout : Layout) (condition : Condition) : Prop :=
  ∃ name c, condition.column = .text name ∧ layout.column? name = some c ∧
    condition.operand.value? = none

namespace Model

/-- What is stored in a declared column is of the kind of a value that it is compared with. -/
theorem oneKind_of_encode {layout : Layout} {d : Datum} {r : Record}
    (hencode : encode .default layout d = .ok r)
    (hread : ∀ c ∈ layout.columns, (c.read d).value? = none) {condition : Condition}
    (hdeclared : condition.IsDeclared layout) {v : Value}
    (hconvert : Conversion.convert ⟨.default, some layout⟩ condition = .ok v) :
    ∃ name stored, condition.column = .text name ∧ Assoc.get? name r.columns = some stored ∧
      stored.OneKind v := by
  obtain ⟨name, c, hname, hcolumn, hoperand⟩ := hdeclared
  obtain ⟨stored, hstored, hget⟩ := get?_of_encode hencode hcolumn
  rw [Conversion.convert_declared hcolumn hname] at hconvert
  have hready := hread c (List.mem_of_find?_eq_some hcolumn)
  exact ⟨name, stored, hname, hget, Registry.oneKind_toValue hready hstored hoperand hconvert⟩

/-- With the built-in converters, what is made of a datum for a column of a type, unless the datum
is a ready backend value, is null exactly if the datum is null, and otherwise of the one kind of the
type; a timestamp is one of universal time. So take a stored instance and a predicate over declared
columns that is translated, where neither a column nor a condition holds a ready backend value. Each
condition of the predicate compares a stored value with a value of its kind, or one of the two is
null; and so does each comparison in the filter. -/
theorem columns_of_one_kind :
    (∀ (t : ColumnType) (d : Datum) (v : Value), d.value? = none →
      Registry.default.toValue d (some t) = .ok v →
        (v.isNull = true ↔ d = .null) ∧ (d ≠ .null → v.IsOf t.kind)) ∧
      ∀ (layout : Layout) (d : Datum) (r : Record), encode .default layout d = .ok r →
        (∀ c ∈ layout.columns, (c.read d).value? = none) →
        ∀ (p : Predicate) (f : Filter), (∀ condition ∈ p.allConditions, condition.IsDeclared layout) →
          Filter.ofPredicate ⟨.default, some layout⟩ p = .ok f →
          (∀ condition ∈ p.allConditions, ∃ name stored v, condition.column = .text name ∧
            Assoc.get? name r.columns = some stored ∧
            Conversion.convert ⟨.default, some layout⟩ condition = .ok v ∧ stored.OneKind v) ∧
          ∀ part ∈ f.comparisons, ∃ name operator stored v,
            part = .property (.text name) (.known operator) v ∧
            Assoc.get? name r.columns = some stored ∧ stored.OneKind v := by
  refine ⟨fun t d v hready hvalue => ⟨Registry.isNull_toValue hready hvalue, fun hd => ?_⟩, ?_⟩
  · exact ((Registry.isOf_toValue hready hvalue).resolve_left fun h => hd h.1).2
  intro layout d r hencode hread p f hdeclared htranslated
  -- The filter has comparisons of conditions only, so both parts are about conditions.
  have hkind (condition : Condition) (hmem : condition ∈ p.allConditions) {v : Value} :=
    oneKind_of_encode hencode hread (hdeclared condition hmem) (v := v)
  refine ⟨fun condition hmem => ?_, fun part hpart => ?_⟩
  · obtain ⟨v, hv⟩ := Filter.exists_convert_of_ofPredicate htranslated condition hmem
    obtain ⟨name, stored, hname, hget, hkinds⟩ := hkind condition hmem hv
    exact ⟨name, stored, v, hname, hget, hv, hkinds⟩
  · obtain ⟨condition, hmem, v, hv, rfl⟩ := Filter.exists_of_mem_comparisons htranslated hpart
    obtain ⟨name, stored, hname, hget, hkinds⟩ := hkind condition hmem hv
    exact ⟨name, condition.operator, stored, v, by rw [hname], hget, hkinds⟩

/-- An item is stored with the number of its version, and asked for by an object that has a number, marked
as a 64-bit one, and by null. -/
theorem columns_of_one_kind_versions :
    let item : Schema := ⟨"Item", [.mk "id" .text none, .mk "built" .integer none]⟩
    let layout : Layout := ⟨"Item", [.ofField "built" .version "built"], "id", none, by decide⟩
    let d : Datum := item.construct [("id", .text "a"), ("built", .integer 3)]
    let p : Predicate := .node .any [⟨.text "built", .less, .version (.long 5)⟩,
      ⟨.text "built", .equal, .null⟩] []
    let f : Filter := .composite (.known .or)
      [.property (.text "built") (.known .less) (.long 5),
        .property (.text "built") (.known .equal) .null]
    (Value.long 5).IsOf .integer ∧
      ∃ r, encode .default layout d = .ok r ∧ Filter.ofPredicate ⟨.default, some layout⟩ p = .ok f ∧
        ∀ part ∈ f.comparisons, ∃ name operator stored v,
          part = .property (.text name) (.known operator) v ∧
          Assoc.get? name r.columns = some stored ∧ stored.OneKind v := by
  intro item layout d p f
  have hid : layout.idOf d = .text "a" := by
    rw [Layout.idOf, Datum.resolve_of_undotted (by decide)]
    rfl
  have hbuilt : d.resolve "built" = .integer 3 := by
    rw [Datum.resolve_of_undotted (by decide)]
    rfl
  have hkey : ∃ key, layout.keyOf (layout.idOf d) = .ok key := hid ▸ ⟨_, rfl⟩
  have htype : ∃ v, Registry.default.toValue (d.resolve "built") (some .version) = .ok v :=
    hbuilt ▸ ⟨.integer 3, rfl⟩
  obtain ⟨r, hr⟩ := exists_encode hkey (List.forall_mem_singleton.mpr htype) ⟨_, rfl⟩
  have hf : Filter.ofPredicate ⟨.default, some layout⟩ p = .ok f := rfl
  have hread : ∀ c ∈ layout.columns, (c.read d).value? = none :=
    List.forall_mem_singleton.mpr (congrArg Datum.value? hbuilt)
  have hdeclared : ∀ condition ∈ p.allConditions, condition.IsDeclared layout :=
    List.forall_mem_cons.mpr ⟨⟨"built", _, rfl, rfl, rfl⟩,
      List.forall_mem_singleton.mpr ⟨"built", _, rfl, rfl, rfl⟩⟩
  refine ⟨?_, r, hr, hf, ?_⟩
  · have hgiven : Datum.version (.long 5) ≠ .null := by simp
    exact (columns_of_one_kind.1 .version (.version (.long 5)) _ rfl rfl).2 hgiven
  · exact (columns_of_one_kind.2 layout d r hr hread p f hdeclared hf).2

end Model

/-! ## Own values -/

namespace Comparison

/-- Exactly one of below, equal and above holds of two values. -/
theorem countP_holds (order : Ordering) :
    [less, equal, greater].countP (fun operator => operator.holds order) = 1 := by
  cases order <;> rfl

theorem holds_lessOrEqual (order : Ordering) : lessOrEqual.holds order = !greater.holds order := by
  cases order <;> rfl

theorem holds_greaterOrEqual (order : Ordering) : greaterOrEqual.holds order = !less.holds order := by
  cases order <;> rfl

end Comparison

/-- The predicate with one condition, that the column compares so with a value, under either logical
operator. -/
def Column.asks (c : Column) (l : Logical) (operator : Comparison) (operand : Datum) : Predicate :=
  .node (.ofLogical l) [⟨.text c.name, operator, operand⟩] []

/-- A record meets a predicate or not, and its filter says the same. -/
structure Predicate.Answers (p : Predicate) (c : Conversion) (r : Record) (answer : Bool) : Prop where
  matched : p.matches? c (some r) = .ok answer
  filtered : ∃ f, Filter.ofPredicate c p = .ok f ∧ f.passes r = .ok answer

/-- A comparison of a column that a record has is answered by the order of the two values. -/
theorem Column.answers_asks {conversion : Conversion} {r : Record} {c : Column} {stored v : Value}
    (hstored : Assoc.get? c.name r.columns = some stored) {operator : Comparison} {operand : Datum}
    (hconvert : conversion.convert ⟨.text c.name, operator, operand⟩ = .ok v) (l : Logical) :
    (c.asks l operator operand).Answers conversion r (operator.holds (stored.compare v)) := by
  have hfilter : Filter.ofPredicate conversion (c.asks l operator operand) =
      .ok (.property (.text c.name) (.known operator) v) := by
    have hpart := Filter.ofCondition_eq_ok.mpr ⟨v, hconvert, rfl⟩
    refine Filter.ofPredicate_eq_ok.mpr (.inr ⟨rfl, rfl, ?_⟩)
    -- Under either operator, a lone part is the whole.
    rw [asks, Filter.ofNode, List.mapM_cons, hpart]
    cases l <;> rfl
  have hpasses : (Filter.property (.text c.name) (.known operator) v).passes r =
      .ok (operator.holds (stored.compare v)) := by
    have hfind : r.find? (.text c.name) = .ok (some stored) := congrArg Except.ok hstored
    rw [Filter.passes, hfind]
    rfl
  refine ⟨?_, _, hfilter, hpasses⟩
  rw [Predicate.matches?_eq_evaluate? rfl, ← (Filter.evaluates_of_passes_eq hpasses).2]
  exact Filter.evaluate_ofPredicate (.inr rfl) hfilter r

namespace Model

/-- Take two instances that are stored in one layout, with any converters, and a column of the
layout that has a name. A condition on the column can be made of each comparison and any datum. The
first record meets the condition that the column equals what it is read from its own instance as.
With what it is read from the other instance as, exactly one of below, equal and above is met; at
most is met where above is not, and at least where below is not. The answers are those of the
predicate and of its filter alike, and each comparison holds as the two stored values compare. -/
theorem found_by_own_values {kind idField : String} {columns : List Column} {parent : Option Key}
    {lifecycle : Bool} {layout : Layout}
    (hlayout : Layout.make kind columns idField parent lifecycle = .ok layout) {registry : Registry}
    {d e : Datum} {r s : Record} (hr : encode registry layout d = .ok r)
    (hs : encode registry layout e = .ok s) {c : Column} (hc : c ∈ layout.columns) (hname : c.name ≠ "")
    (l : Logical) :
    (∀ operator operand, Condition.make (.text c.name) (.text operator.symbol) operand =
      .ok ⟨.text c.name, operator, operand⟩) ∧
      (c.asks l .equal (c.read d)).Answers ⟨registry, some layout⟩ r true ∧
      ∃ answers : Comparison → Bool,
        (∀ operator, (c.asks l operator (c.read e)).Answers ⟨registry, some layout⟩ r (answers operator)) ∧
        [Comparison.less, .equal, .greater].countP answers = 1 ∧
        answers .lessOrEqual = !answers .greater ∧ answers .greaterOrEqual = !answers .less ∧
        ∀ operator, answers operator = operator.holds ((r.get c.name).compare (s.get c.name)) := by
  have hcolumn := Layout.column?_of_mem (Layout.nodup_named_make hlayout) hc
  -- What is asked for is converted as it was when it was stored, by the type of the column.
  obtain ⟨own, hown, hget⟩ := get?_of_encode hr hcolumn
  obtain ⟨other, hother, hget'⟩ := get?_of_encode hs hcolumn
  have hanswers (operator : Comparison) {operand : Datum} {v : Value}
      (hv : registry.toValue operand (some c.type) = .ok v) :
      (c.asks l operator operand).Answers ⟨registry, some layout⟩ r (operator.holds (own.compare v)) :=
    Column.answers_asks hget ((Conversion.convert_declared hcolumn rfl).trans hv) l
  refine ⟨fun operator operand => ?_, ?_, fun operator => operator.holds (own.compare other),
    fun operator => hanswers operator hother, Comparison.countP_holds _, Comparison.holds_lessOrEqual _,
    Comparison.holds_greaterOrEqual _, fun operator => ?_⟩
  · have hnamed : (Datum.text c.name).isTruthy = true := decide_eq_true hname
    have hsymbol : Comparison.ofSymbol? operator.symbol = some operator :=
      Comparison.ofSymbol?_eq_some.mpr rfl
    simp only [Condition.make, hnamed, hsymbol, Bool.not_true, Bool.false_eq_true, if_false]
  · have hsame : own.compare own = .eq := Std.ReflCmp.compare_self
    have hequal := hanswers .equal hown
    rw [hsame] at hequal
    exact hequal
  · rw [Record.get, Record.get, hget, hget']
    rfl

/-- A ratio that is no number is found as such, and lies below zero. -/
theorem found_by_own_values_notANumber :
    let row : Schema := ⟨"Row", [.mk "id" .text none, .mk "ratio" .double none]⟩
    let ratio : Column := .ofField "ratio" .double "ratio"
    let layout : Layout := ⟨"Row", [ratio], "id", none, by decide⟩
    let rated (x : Double) : Datum := row.construct [("id", .text "a"), ("ratio", .double x)]
    Layout.make "Row" [ratio] "id" none false = .ok layout ∧
      ∃ r s, encode .default layout (rated .nan) = .ok r ∧ encode .default layout (rated .zero) = .ok s ∧
        (ratio.asks .and .equal (.double .nan)).Answers ⟨.default, some layout⟩ r true ∧
        (ratio.asks .and .less (.double .zero)).Answers ⟨.default, some layout⟩ r true := by
  intro row ratio layout rated
  have hlayout : Layout.make "Row" [ratio] "id" none false = .ok layout := rfl
  have hkey (x : Double) : ∃ key, layout.keyOf (layout.idOf (rated x)) = .ok key := by
    rw [Layout.idOf, Datum.resolve_of_undotted (by decide)]
    exact ⟨_, rfl⟩
  have hread (x : Double) : ratio.read (rated x) = .double x := by
    change (rated x).resolve "ratio" = _
    rw [Datum.resolve_of_undotted (by decide)]
    rfl
  have hvalue (x : Double) : ∃ v, Registry.default.toValue (ratio.read (rated x)) (some .double) = .ok v :=
    hread x ▸ ⟨.double x, rfl⟩
  obtain ⟨r, hr⟩ := exists_encode (hkey .nan) (List.forall_mem_singleton.mpr (hvalue .nan)) ⟨_, rfl⟩
  obtain ⟨s, hs⟩ := exists_encode (hkey .zero) (List.forall_mem_singleton.mpr (hvalue .zero)) ⟨_, rfl⟩
  have hmem : ratio ∈ layout.columns := List.mem_singleton_self _
  have hcolumn : layout.column? ratio.name = some ratio := rfl
  obtain ⟨-, hown, answers, hanswers, -, -, -, horder⟩ :=
    found_by_own_values hlayout hr hs hmem (by decide) .and
  have hstored {x : Double} {r : Record} (h : encode .default layout (rated x) = .ok r) :
      r.get ratio.name = .double x := by
    obtain ⟨v, hv, hget⟩ := get?_of_encode h hcolumn
    rw [hread x] at hv
    obtain rfl := Except.ok.inj hv
    rw [Record.get, hget]
    rfl
  have hless := hanswers .less
  rw [horder, hstored hr, hstored hs, hread] at hless
  rw [hread] at hown
  exact ⟨hlayout, r, s, hr, hs, hown, hless⟩

end Model

end RecordStore
