import RecordStore.Document.Clause
import RecordStore.Proofs.Document.Record
import RecordStore.Proofs.Filter.Acceptance

/-!
# Filters in a document database

What a database must do with the query documents of filters is said by `MatchLaws`, for any test
of documents. A filter then selects the documents of the records that pass it, but for one case
(`Document.accepts_ofFilter`): a null in a column lies below every other value, and the database's
own ordered comparisons never reach it.
-/

namespace RecordStore

/-! ## Databases -/

namespace Document

/-- A name that stands for one field of a document, and for no reserved one: it is neither a path
into the fields of fields nor an operator. -/
structure PlainName (name : String) : Prop where
  unreserved : isReserved name = false
  undotted : '.' ∉ name.toList
  unmarked : name.toList.head? ≠ some '$'

/-- The field of a document with a plain name that holds no list; of a list, the database would test
the items. -/
structure PlainField (doc : Document) (name : String) : Prop extends PlainName name where
  noList : ∀ items, Assoc.get? name doc ≠ some (.list items)

/-- The condition that a field meets some tests. -/
def tests (name : String) (tests : List (String × Datum)) : Datum :=
  .dict [(.text name, .ofFields tests)]

/-- What the documentation of the database says about the documents that a query document
accepts. -/
structure MatchLaws (accepts : Datum → Document → Prop) : Prop where
  everything : ∀ doc, accepts (.ofFields []) doc
  all : ∀ parts ≠ [], ∀ doc,
    accepts (.ofFields [("$and", .list parts)]) doc ↔ ∀ part ∈ parts, accepts part doc
  any : ∀ parts ≠ [], ∀ doc,
    accepts (.ofFields [("$or", .list parts)]) doc ↔ ∃ part ∈ parts, accepts part doc
  oneOfNone : ∀ doc, ¬ accepts (.ofFields [(idField, .ofFields [("$in", .list [])])]) doc
  present : ∀ doc name, PlainField doc name →
    (accepts (tests name [("$exists", .boolean true)]) doc ↔ Assoc.contains name doc = true)
  null : ∀ doc name, PlainField doc name →
    (accepts (tests name [("$type", .text "null")]) doc ↔ Assoc.get? name doc = some .null)
  /-- Two tests of one field are both to be met. -/
  both : ∀ doc name, PlainField doc name →
    (accepts (tests name [("$exists", .boolean true), ("$not", Clause.nullType)]) doc ↔
      accepts (tests name [("$exists", .boolean true)]) doc ∧
        accepts (tests name [("$not", Clause.nullType)]) doc)
  negated : ∀ doc name, PlainField doc name →
    (accepts (tests name [("$not", Clause.nullType)]) doc ↔
      ¬ accepts (tests name [("$type", .text "null")]) doc)
  /-- A comparison with a value that is not null misses fields that are not there or are null. -/
  comparesNone : ∀ doc name (c : Comparison) operand v, PlainField doc name →
    Value.ofField false operand = .ok v → v.isNull = false →
    Assoc.get? name doc = none ∨ Assoc.get? name doc = some .null →
    ¬ accepts (tests name [(Clause.comparisonWord c, operand)]) doc
  /-- Inside one type, values are in the order of backend values. -/
  compares : ∀ doc name (c : Comparison) operand v stored w, PlainField doc name →
    Value.ofField false operand = .ok v → v.isNull = false →
    Assoc.get? name doc = some stored → Value.ofField false stored = .ok w → w.kind = v.kind →
    (accepts (tests name [(Clause.comparisonWord c, operand)]) doc ↔ c.holds (w.compare v) = true)

/-! ## A database that keeps the laws -/

/-- The comparison of a word. -/
def comparisonOfWord? (word : String) : Option Comparison :=
  Comparison.all.find? fun c => Clause.comparisonWord c = word

/-- The value of a datum in a field, if it has one. -/
def fieldValue? (d : Datum) : Option Value := (Value.ofField false d).toOption

/-- Whether a field's datum, if there is one, compares so with an operand of its kind. -/
def meetsComparison (stored : Option Datum) (c : Comparison) (operand : Datum) : Bool :=
  match stored.bind fieldValue?, fieldValue? operand with
  | some w, some v => !v.isNull && w.kind = v.kind && c.holds (w.compare v)
  | _, _ => false

/-- Whether a field's datum, if there is one, is of a type; only that of null is known. -/
def meetsType (stored : Option Datum) (type : Datum) : Bool :=
  match stored, type with
  | some .null, .text kind => kind = "null"
  | _, _ => false

/-- Whether a field's datum, if there is one, meets a test without further tests in it. -/
def meetsLeaf (stored : Option Datum) (word : String) (operand : Datum) : Bool :=
  if word = "$exists" then stored.isSome = operand.isTruthy
  else if word = "$type" then meetsType stored operand
  else (comparisonOfWord? word).any fun c => meetsComparison stored c operand

mutual

/-- Whether a field's datum, if there is one, meets a test. -/
def meetsTest (stored : Option Datum) (word : String) : Datum → Bool
  | .dict tests => word = "$not" && !meetsTests stored tests
  | operand => meetsLeaf stored word operand

/-- Whether a field's datum, if there is one, meets all tests. -/
def meetsTests (stored : Option Datum) : List (Datum × Datum) → Bool
  | [] => true
  | (.text word, operand) :: rest => meetsTest stored word operand && meetsTests stored rest
  | _ :: _ => false

end

mutual

/-- Whether a document meets a query document. -/
def meets (doc : Document) : Datum → Bool
  | .dict entries => meetsEntries doc entries
  | _ => false

/-- Whether a document meets all entries of a query document. -/
def meetsEntries (doc : Document) : List (Datum × Datum) → Bool
  | [] => true
  | (.text word, .list parts) :: rest =>
    (if word = "$and" then meetsAll doc parts else word = "$or" && meetsAny doc parts) &&
      meetsEntries doc rest
  | (.text name, .dict tests) :: rest =>
    meetsTests (Assoc.get? name doc) tests && meetsEntries doc rest
  | _ :: _ => false

/-- Whether a document meets all query documents. -/
def meetsAll (doc : Document) : List Datum → Bool
  | [] => true
  | part :: rest => meets doc part && meetsAll doc rest

/-- Whether a document meets some query document. -/
def meetsAny (doc : Document) : List Datum → Bool
  | [] => false
  | part :: rest => meets doc part || meetsAny doc rest

end

theorem meetsAll_iff (doc : Document) (parts : List Datum) :
    meetsAll doc parts = true ↔ ∀ part ∈ parts, meets doc part = true := by
  induction parts with
  | nil => simp [meetsAll]
  | cons part rest ih => rw [meetsAll, Bool.and_eq_true, ih, List.forall_mem_cons]

theorem meetsAny_iff (doc : Document) (parts : List Datum) :
    meetsAny doc parts = true ↔ ∃ part ∈ parts, meets doc part = true := by
  induction parts with
  | nil => simp [meetsAny]
  | cons part rest ih => rw [meetsAny, Bool.or_eq_true, ih, List.exists_mem_cons_iff]

/-- A document meets several tests of a field if it meets each. -/
theorem meets_tests (doc : Document) (name : String) (list : List (String × Datum)) :
    meets doc (tests name list) =
      list.all fun test => meetsTest (Assoc.get? name doc) test.1 test.2 := by
  rw [tests, Datum.ofFields, meets, meetsEntries, meetsEntries, Bool.and_true]
  induction list with
  | nil => rfl
  | cons test rest ih => rw [List.map_cons, meetsTests, ih, List.all_cons]

/-- The word of a comparison tests for it. -/
theorem meetsLeaf_comparisonWord (stored : Option Datum) (c : Comparison) (operand : Datum) :
    meetsLeaf stored (Clause.comparisonWord c) operand = meetsComparison stored c operand := by
  cases c <;> rfl

/-- A document meets a test if its field meets the comparison. -/
theorem meets_comparison (doc : Document) (name : String) (c : Comparison) {operand : Datum}
    {v : Value} (h : Value.ofField false operand = .ok v) :
    meets doc (tests name [(Clause.comparisonWord c, operand)]) =
      meetsComparison (Assoc.get? name doc) c operand := by
  rw [meets_tests, List.all_cons, List.all_nil, Bool.and_true, ← meetsLeaf_comparisonWord,
    meetsTest]
  rintro list rfl
  cases h

/-- The matching of documents obeys the laws. -/
theorem matchLaws_meets : MatchLaws fun query doc => meets doc query = true where
  everything _ := rfl
  all parts _ doc := by
    rw [← meetsAll_iff]
    simp [Datum.ofFields, meets, meetsEntries]
  any parts _ doc := by
    rw [← meetsAny_iff]
    simp [Datum.ofFields, meets, meetsEntries]
  oneOfNone doc := by
    change ¬ meets doc (tests idField [("$in", .list [])]) = true
    rw [meets_tests]
    exact Bool.false_ne_true
  present doc name _ := by
    rw [meets_tests, Assoc.contains]
    cases Assoc.get? name doc <;> rfl
  null doc name _ := by
    rw [meets_tests]
    simp only [List.all_cons, List.all_nil, Bool.and_true, meetsTest]
    change meetsType _ _ = true ↔ _
    cases Assoc.get? name doc with
    | none => simp [meetsType]
    | some d => cases d <;> simp [meetsType]
  both doc name _ := by
    simp [meets_tests]
  negated doc name _ := by
    simp [meets_tests, meetsTest, Clause.nullType, Datum.ofFields, meetsTests]
  comparesNone doc name c operand v _ hread hnonnull hstored := by
    have hoperand : fieldValue? operand = some v := congrArg Except.toOption hread
    -- A field without a value, or with null, is of no other kind.
    have hkind : Value.null.kind ≠ v.kind := fun h => of_decide_eq_false hnonnull h.symm
    rw [meets_comparison doc name c hread, meetsComparison, hoperand]
    obtain hstored | hstored := hstored
    · simp [hstored]
    · have hnull : fieldValue? .null = some .null := rfl
      simp [hstored, hnull, hkind]
  compares doc name c operand v stored w _ hread hnonnull hstored hread' hkind := by
    have hstored' : fieldValue? stored = some w := congrArg Except.toOption hread'
    have hoperand : fieldValue? operand = some v := congrArg Except.toOption hread
    rw [meets_comparison doc name c hread, meetsComparison, hstored, Option.bind_some, hstored',
      hoperand]
    simp [hnonnull, hkind]

end Document

/-! ## Values in fields -/

namespace Value

/-- What a field tells of a value on its own: a timestamp is a whole number there. -/
def inField : Value → Value
  | .timestamp m => .integer m.micros
  | v => v.plain

/-- A value is read from its field as the value that the field keeps. -/
theorem ofField_inField (v : Value) : ofField false v.toField = .ok v.inField := by
  cases v <;> rfl

/-- A field keeps null, and makes no other value null. -/
theorem isNull_inField (v : Value) : v.inField.isNull = v.isNull := by
  cases v <;> rfl

/-- Values of one kind are kept as values of one kind. -/
theorem kind_inField {v w : Value} (h : v.kind = w.kind) : v.inField.kind = w.inField.kind := by
  cases v <;> cases w <;> first | rfl | cases h

/-- In fields, values of one kind are in their own order, if timestamps are in step. -/
theorem compare_inField {v w : Value} (h : v.kind = w.kind) (hstep : v.InStep w) :
    v.inField.compare w.inField = v.compare w := by
  cases v with
  | timestamp m =>
    cases w with
    | timestamp n =>
      rw [compare_timestamp, Moment.compare_of_inStep (inStep_timestamp.mp hstep)]
      exact congrArg (Ordering.then .eq) (Magnitude.compare_ofInt m.micros n.micros)
    | null | boolean _ | integer _ | long _ | double _ | string _ | blob _ | binary _ => cases h
  | null | boolean _ | integer _ | long _ | double _ | string _ | blob _ | binary _ =>
    cases w <;> first | rfl | cases h

/-- Only null is kept as null. -/
theorem toField_eq_null {v : Value} : v.toField = .null ↔ v = .null := by
  cases v <;> simp [toField, Datum.ofValue]

/-- No value is kept as a list. -/
theorem toField_ne_list (v : Value) (items : List Datum) : v.toField ≠ .list items := by
  cases v <;> simp [toField, Datum.ofValue]

end Value

/-! ## Single comparisons -/

namespace Record

variable {r : Record} {doc : Document} {column : String} {c : Comparison} {operand : Value}

/-- A comparison that stays inside one kind, if neither side of it is null, and in which timestamps are
in step. -/
structure Comparable (r : Record) (column : String) (operand : Value) : Prop where
  plain : Document.PlainName column
  sameKind : ∀ stored, Assoc.get? column r.columns = some stored →
    stored.isNull = true ∨ operand.isNull = true ∨ stored.kind = operand.kind
  inStep : ∀ stored, Assoc.get? column r.columns = some stored → stored.InStep operand

/-- A comparison that holds only because a null in the column lies below the operand. -/
structure NullBelow (r : Record) (column : String) (c : Comparison) (operand : Value) : Prop where
  stored : Assoc.get? column r.columns = some .null
  operand : operand.isNull = false
  downward : c = .less ∨ c = .lessOrEqual

instance : Decidable (r.NullBelow column c operand) :=
  decidable_of_iff (Assoc.get? column r.columns = some .null ∧ operand.isNull = false ∧
      (c = .less ∨ c = .lessOrEqual))
    ⟨fun ⟨stored, operand, downward⟩ => ⟨stored, operand, downward⟩,
      fun ⟨stored, operand, downward⟩ => ⟨stored, operand, downward⟩⟩

/-- A column is in the field with its name. -/
theorem get?_document (hdoc : r.toDocument = .ok doc)
    (hcolumn : Document.isReserved column = false) :
    Assoc.get? column doc = (Assoc.get? column r.columns).map Value.toField := by
  rw [toDocument_eq] at hdoc
  split at hdoc
  · cases hdoc
  · obtain rfl := Except.ok.inj hdoc
    -- The columns stand behind the reserved fields, none of which has this name.
    have hreserved : Assoc.get? column r.reservedFields = none := by
      simp only [Document.isReserved, Document.reserved, List.contains_eq_mem,
        decide_eq_false_iff_not, List.mem_cons, not_or] at hcolumn
      simp [reservedFields, Assoc.get?, Ne.symm, hcolumn]
    rw [Assoc.get?_append, hreserved, columnFields, Assoc.get?_map]
    rfl

/-- A column is a plain field of the document of its record. -/
theorem plainField (hdoc : r.toDocument = .ok doc) (hcolumn : Document.PlainName column) :
    doc.PlainField column where
  toPlainName := hcolumn
  noList items hitems := by
    rw [get?_document hdoc hcolumn.unreserved, Option.map_eq_some_iff] at hitems
    obtain ⟨stored, -, hlist⟩ := hitems
    exact stored.toField_ne_list items hlist

end Record

namespace Comparison

/-- Which comparisons with null hold. -/
theorem holds_compare_null (c : Comparison) (v : Value) :
    c.holds (v.compare .null) = match c with
      | .equal | .lessOrEqual => v.isNull
      | .greaterOrEqual => true
      | .greater => !v.isNull
      | .less => false := by
  rw [Value.compare_null]
  cases c <;> cases v.isNull <;> rfl

theorem holds_lt {c : Comparison} : c.holds .lt = true ↔ c = .less ∨ c = .lessOrEqual := by
  cases c <;> simp [holds]

end Comparison

namespace Document

variable {accepts : Datum → Document → Prop} {r : Record} {doc : Document} {column : String}
  {c : Comparison} {operand : Value}

/-- Comparisons with null are compiled to tests that accept what they hold of. -/
theorem accepts_ofNull (laws : MatchLaws accepts) (hdoc : r.toDocument = .ok doc)
    (hcolumn : PlainName column) :
    ∃ clause, Clause.ofNull (.text column) (.known c) = .ok clause ∧
      (accepts clause.toDatum doc ↔
        ((Assoc.get? column r.columns).any fun stored => c.holds (stored.compare .null)) =
          true) := by
  have hfield : doc.PlainField column := Record.plainField hdoc hcolumn
  have hget := Record.get?_document hdoc hcolumn.unreserved
  have hnull : accepts (tests column [("$type", .text "null")]) doc ↔
      Assoc.get? column r.columns = some .null := by
    rw [laws.null doc column hfield, hget]
    cases Assoc.get? column r.columns <;> simp [Value.toField_eq_null]
  have hpresent : accepts (tests column [("$exists", .boolean true)]) doc ↔
      (Assoc.get? column r.columns).isSome = true := by
    rw [laws.present doc column hfield, Assoc.contains, hget, Option.isSome_map]
  -- Whatever is there is at least null, and only null is at most null.
  simp only [Comparison.holds_compare_null]
  cases c with
  | equal | lessOrEqual =>
    refine ⟨.isNull (.text column), rfl, hnull.trans ?_⟩
    cases Assoc.get? column r.columns <;> simp [Value.isNull_iff]
  | greaterOrEqual =>
    refine ⟨.isPresent (.text column), rfl, hpresent.trans ?_⟩
    cases Assoc.get? column r.columns <;> simp
  | greater =>
    refine ⟨.isFilled (.text column), rfl, (laws.both doc column hfield).trans ?_⟩
    rw [hpresent, laws.negated doc column hfield, hnull]
    cases Assoc.get? column r.columns <;> simp [← Value.isNull_iff]
  | less =>
    refine ⟨Clause.nothing, rfl, iff_of_false (laws.oneOfNone doc) ?_⟩
    cases Assoc.get? column r.columns <;> simp

/-- A comparison with a value that is not null is compiled to the database's own, which accepts
what it holds of but for a null that lies below the value. -/
theorem accepts_compares (laws : MatchLaws accepts) (hdoc : r.toDocument = .ok doc)
    (hcomparable : r.Comparable column operand) (hoperand : operand.isNull = false) :
    accepts (Clause.compares (.text column) c operand).toDatum doc ↔
      ((Assoc.get? column r.columns).any fun stored => c.holds (stored.compare operand)) = true ∧
        ¬ r.NullBelow column c operand := by
  have hfield : doc.PlainField column := Record.plainField hdoc hcomparable.plain
  have hget := Record.get?_document hdoc hcomparable.plain.unreserved
  have hread := operand.ofField_inField
  have hnonnull : operand.inField.isNull = false := by rw [operand.isNull_inField, hoperand]
  have hmisses := laws.comparesNone doc column c _ _ hfield hread hnonnull
  change accepts (tests column [(Clause.comparisonWord c, operand.toField)]) doc ↔ _
  cases hstored : Assoc.get? column r.columns with
  | none =>
    rw [hstored] at hget
    exact iff_of_false (hmisses (.inl hget)) (by simp)
  | some stored =>
    rw [hstored] at hget
    obtain hnull | hsame : stored.isNull = true ∨ stored.kind = operand.kind := by
      simpa [hoperand] using hcomparable.sameKind stored hstored
    · -- The null is not reached, and the comparison holds of it only if it looks below.
      obtain rfl := Value.isNull_iff.mp hnull
      refine iff_of_false (hmisses (.inr hget)) ?_
      rintro ⟨hholds, hbelow⟩
      rw [Option.any_some, Value.null_compare hoperand, Comparison.holds_lt] at hholds
      exact hbelow ⟨hstored, hoperand, hholds⟩
    · -- Inside one kind there is no null, and fields keep the order of such values.
      have hbelow : ¬ r.NullBelow column c operand := by
        rintro ⟨hnull, -, -⟩
        obtain rfl := Option.some.inj (hstored.symm.trans hnull)
        rw [Value.isNull, ← hsame] at hoperand
        cases hoperand
      rw [laws.compares doc column c _ _ _ _ hfield hread hnonnull hget stored.ofField_inField
        (Value.kind_inField hsame),
        Value.compare_inField hsame (hcomparable.inStep stored hstored), Option.any_some,
        and_iff_left hbelow]

/-- A compiled comparison accepts the document of a record that passes it, unless a null lies below
the operand. -/
theorem accepts_ofProperty (laws : MatchLaws accepts) (hdoc : r.toDocument = .ok doc)
    (hcomparable : r.Comparable column operand) :
    ∃ clause, Clause.ofProperty (.text column) (.known c) operand = .ok clause ∧
      (accepts clause.toDatum doc ↔
        (Filter.property (.text column) (.known c) operand).accepts r = true ∧
          ¬ r.NullBelow column c operand) := by
  rw [Filter.accepts_property]
  cases hoperand : operand.isNull with
  | true =>
    obtain rfl := Value.isNull_iff.mp hoperand
    obtain ⟨clause, hclause, haccepts⟩ := accepts_ofNull laws hdoc hcomparable.plain
    have hbelow : ¬ r.NullBelow column c .null := fun h => Bool.noConfusion h.operand
    exact ⟨clause, hclause, by rw [haccepts, and_iff_left hbelow]⟩
  | false =>
    refine ⟨.compares (.text column) c operand, ?_, accepts_compares laws hdoc hcomparable hoperand⟩
    rw [Clause.ofProperty, hoperand]
    rfl

end Document

/-! ## Filters -/

namespace Filter

variable {r : Record} {p : String → Comparison → Value → Prop}

mutual

/-- The filter with nothing in the place of each comparison that holds only because of a null below
its operand. -/
def withoutNullBelow (r : Record) : Filter → Filter
  | .property (.text column) (.known c) operand =>
    if r.NullBelow column c operand then .nothing else .property (.text column) (.known c) operand
  | .composite operator parts => .composite operator (partsWithoutNullBelow r parts)
  | f => f

/-- The parts of a composite with nothing in the place of such comparisons. -/
def partsWithoutNullBelow (r : Record) : List Filter → List Filter
  | [] => []
  | part :: rest => withoutNullBelow r part :: partsWithoutNullBelow r rest

end

theorem partsWithoutNullBelow_eq_map (parts : List Filter) :
    partsWithoutNullBelow r parts = parts.map (withoutNullBelow r) := by
  induction parts with
  | nil => rfl
  | cons part rest ih => rw [partsWithoutNullBelow, ih, List.map_cons]

theorem withoutNullBelow_composite (operator : Logical) (parts : List Filter) :
    (composite (.known operator) parts).withoutNullBelow r =
      .composite (.known operator) (parts.map (withoutNullBelow r)) := by
  rw [withoutNullBelow, partsWithoutNullBelow_eq_map]

/-- A comparison without nulls below accepts what the comparison accepts of other values. -/
theorem accepts_withoutNullBelow_property {column : String} {c : Comparison} {operand : Value} :
    ((property (.text column) (.known c) operand).withoutNullBelow r).accepts r = true ↔
      (property (.text column) (.known c) operand).accepts r = true ∧
        ¬ r.NullBelow column c operand := by
  rw [withoutNullBelow]
  split
  · next hbelow => exact iff_of_false Bool.false_ne_true fun h => h.2 hbelow
  · next hbelow => rw [and_iff_left hbelow]

/-- What holds of each comparison of a filter holds without nulls below. -/
theorem Every.withoutNullBelow {f : Filter} (h : f.Every p) : (f.withoutNullBelow r).Every p := by
  induction h with
  | nothing => exact .nothing
  | property h =>
    rw [Filter.withoutNullBelow]
    split
    · exact .nothing
    · exact .property h
  | @composite operator parts _ ih =>
    rw [withoutNullBelow_composite]
    exact .composite (List.forall_mem_map.mpr ih)

/-- A filter that no null lies below stays as it is. -/
theorem withoutNullBelow_eq_self {f : Filter}
    (h : f.Every fun column c operand => ¬ r.NullBelow column c operand) :
    f.withoutNullBelow r = f := by
  induction h with
  | nothing => rfl
  | property hbelow => rw [withoutNullBelow, if_neg hbelow]
  | composite _ ih => rw [withoutNullBelow_composite, List.map_congr_left ih, List.map_id']

/-- A composite without nulls below has parts without them. -/
theorem accepts_withoutNullBelow_composite {operator : Logical} {parts : List Filter}
    (h : (composite (.known operator) parts).Every p) :
    ((composite (.known operator) parts).withoutNullBelow r).accepts r = true ↔
      match operator with
      | .and => ∀ part ∈ parts, (part.withoutNullBelow r).accepts r = true
      | .or => ∃ part ∈ parts, (part.withoutNullBelow r).accepts r = true := by
  have hevery := h.withoutNullBelow (r := r)
  rw [withoutNullBelow_composite] at hevery ⊢
  rw [accepts_composite hevery]
  cases operator with
  | and => exact List.forall_mem_map
  | or => simp only [List.mem_map, exists_exists_and_eq_and]

/-- Records that pass without comparisons with nulls below pass with them. -/
theorem accepts_of_withoutNullBelow {f : Filter} (h : f.Every p)
    (hpasses : (f.withoutNullBelow r).accepts r = true) : f.accepts r = true := by
  induction h with
  | nothing => exact hpasses
  | property => exact (accepts_withoutNullBelow_property.mp hpasses).1
  | @composite operator parts hparts ih =>
    have hevery : (composite (.known operator) parts).Every p := .composite hparts
    rw [accepts_withoutNullBelow_composite hevery] at hpasses
    rw [accepts_composite hevery]
    cases operator with
    | and => exact fun part hpart => ih part hpart (hpasses part hpart)
    | or =>
      obtain ⟨part, hpart, haccepts⟩ := hpasses
      exact ⟨part, hpart, ih part hpart haccepts⟩

end Filter

namespace Clause

theorem toData_eq_map (parts : List Clause) : toData parts = parts.map toDatum := by
  induction parts with
  | nil => rfl
  | cons part rest ih => rw [toData, ih, List.map_cons]

/-- Parts compile if each of them does. -/
theorem ofParts_eq_map {parts : List Filter} {compiled : Filter → Clause}
    (h : ∀ part ∈ parts, ofPart part = .ok (compiled part)) :
    ofParts parts = .ok (parts.map compiled) := by
  induction parts with
  | nil => rfl
  | cons part rest ih =>
    obtain ⟨hpart, hrest⟩ := List.forall_mem_cons.mp h
    rw [ofParts, hpart, ih hrest]
    rfl

end Clause

namespace Document

variable {accepts : Datum → Document → Prop} {r : Record} {doc : Document}

/-- The compiled parts of a composite filter are joined as the filter joins its parts. -/
theorem accepts_ofComposite (laws : MatchLaws accepts) (doc : Document) (operator : Logical)
    {parts : List Filter} {compiled : Filter → Clause}
    (h : ∀ part ∈ parts, Clause.ofPart part = .ok (compiled part)) :
    ∃ clause, Clause.ofPart (.composite (.known operator) parts) = .ok clause ∧
      (accepts clause.toDatum doc ↔
        match operator with
        | .and => ∀ part ∈ parts, accepts (compiled part).toDatum doc
        | .or => ∃ part ∈ parts, accepts (compiled part).toDatum doc) := by
  obtain rfl | hparts := eq_or_ne parts []
  · cases operator with
    | and => exact ⟨.everything, rfl, iff_of_true (laws.everything doc) (by simp)⟩
    | or => exact ⟨Clause.nothing, rfl, iff_of_false (laws.oneOfNone doc) (by simp)⟩
  · -- Only a composite of some parts is sent as a list of conditions.
    have hdata : Clause.toData (parts.map compiled) ≠ [] := by
      rw [Clause.toData_eq_map]
      simpa using hparts
    have hcompiled := Clause.ofParts_eq_map h
    cases operator with
    | and =>
      refine ⟨.all (parts.map compiled), ?_, (laws.all _ hdata doc).trans ?_⟩
      · rw [Clause.ofPart, hcompiled]
        · rfl
        · exact fun _ => hparts
        · exact hparts
      · rw [Clause.toData_eq_map, List.forall_mem_map, List.forall_mem_map]
    | or =>
      refine ⟨.any (parts.map compiled), ?_, (laws.any _ hdata doc).trans ?_⟩
      · rw [Clause.ofPart, hcompiled]
        · rfl
        · exact fun _ => hparts
        · exact hparts
      · simp only [Clause.toData_eq_map, List.mem_map, exists_exists_and_eq_and]

/-- A compiled filter accepts the documents of the records that pass it without the comparisons that
hold because of a null below their operands. -/
theorem accepts_ofPart (laws : MatchLaws accepts) (hdoc : r.toDocument = .ok doc) {f : Filter}
    (hf : f.Every fun column _ operand => r.Comparable column operand) :
    ∃ clause, Clause.ofPart f = .ok clause ∧
      (accepts clause.toDatum doc ↔ (f.withoutNullBelow r).accepts r = true) := by
  -- By induction on the filter: comparisons are the base, and the database joins as filters do.
  induction hf with
  | nothing => exact ⟨Clause.nothing, rfl, iff_of_false (laws.oneOfNone doc) Bool.false_ne_true⟩
  | property hcomparable =>
    obtain ⟨clause, hclause, haccepts⟩ := accepts_ofProperty laws hdoc hcomparable
    exact ⟨clause, hclause, haccepts.trans Filter.accepts_withoutNullBelow_property.symm⟩
  | @composite operator parts hparts ih =>
    have : Nonempty Clause := ⟨.everything⟩
    choose! compiled hcompiled haccepts using ih
    obtain ⟨clause, hclause, hjoined⟩ := accepts_ofComposite laws doc operator hcompiled
    refine ⟨clause, hclause, hjoined.trans ?_⟩
    rw [Filter.accepts_withoutNullBelow_composite (.composite hparts)]
    cases operator with
    | and => exact forall₂_congr haccepts
    | or => exact exists_congr fun part => and_congr_right (haccepts part)

/-- On columns with plain names whose values are absent, null or of the operand's kind, and in step
with it if they are timestamps, a filter is compiled and can be evaluated. The database accepts the
documents of exactly those records that pass the filter without the comparisons that hold because of a
null below their operands. So it accepts only records that pass the filter, and all of them if there
are no such comparisons; a single comparison of that sort misses the record. -/
theorem accepts_ofFilter (laws : MatchLaws accepts) (hdoc : r.toDocument = .ok doc) {f : Filter}
    (hf : f.Every fun column _ operand => r.Comparable column operand) :
    ∃ clause answer, Clause.ofFilter f = .ok clause ∧ f.passes r = .ok answer ∧
      (accepts clause.toDatum doc ↔ (f.withoutNullBelow r).passes r = .ok true) ∧
      (accepts clause.toDatum doc → answer = true) ∧
      ((f.Every fun column c operand => ¬ r.NullBelow column c operand) →
        (accepts clause.toDatum doc ↔ answer = true)) ∧
      ∀ column c operand, f = .property (.text column) (.known c) operand →
        ((accepts clause.toDatum doc ↔ answer = true) ↔ ¬ r.NullBelow column c operand) := by
  obtain ⟨clause, hclause, haccepts⟩ := accepts_ofPart laws hdoc hf
  have hfilter : Clause.ofFilter f = .ok clause := by
    cases hf <;> exact hclause
  have hwithout : (f.withoutNullBelow r).passes r = .ok ((f.withoutNullBelow r).accepts r) :=
    hf.withoutNullBelow.evaluates
  refine ⟨clause, f.accepts r, hfilter, hf.evaluates, ?_, ?_, ?_, ?_⟩
  · rw [haccepts, hwithout, Except.ok.injEq]
  · exact fun h => Filter.accepts_of_withoutNullBelow hf (haccepts.mp h)
  · intro hbelow
    rw [haccepts, Filter.withoutNullBelow_eq_self hbelow]
  · rintro column c operand rfl
    rw [haccepts, Filter.accepts_withoutNullBelow_property, and_iff_left_iff_imp]
    refine ⟨fun hagree hbelow => hagree ?_ hbelow, fun hbelow _ => hbelow⟩
    -- The comparison holds of the null, and the database misses it.
    rw [Filter.accepts_property, hbelow.stored, Option.any_some, Value.null_compare hbelow.operand,
      Comparison.holds_lt]
    exact hbelow.downward

/-- A record with an integer, a null and a timestamp. -/
def reading : Record where
  key := Record.marked.key
  columns := [("n", .integer 3), ("s", .null), ("at", .timestamp Record.leapDay)]
  payload := []

/-- Comparisons of each column of `reading`, and of one that it does not have. -/
def readingFilter : Filter :=
  .composite (.known .and)
    [.property (.text "n") (.known .greaterOrEqual) (.integer 2),
      .composite (.known .or)
        [.property (.text "absent") (.known .greater) .null,
          .property (.text "s") (.known .equal) .null],
      .property (.text "at") (.known .less)
        (.timestamp ⟨⟨Record.leapDay.reading.date, ⟨2, by decide⟩⟩, .universal⟩)]

theorem accepts_ofFilter_reading :
    ∃ clause doc, reading.toDocument = .ok doc ∧ Clause.ofFilter readingFilter = .ok clause ∧
      readingFilter.passes reading = .ok true ∧ meets doc clause.toDatum = true := by
  have hdoc : reading.toDocument = .ok (reading.reservedFields ++ reading.columnFields) := by
    rw [Record.toDocument_eq, if_neg (by decide)]
  have hcomparable :
      readingFilter.Every fun column _ operand => reading.Comparable column operand := by
    simp only [readingFilter, Filter.every_composite, Filter.every_property, List.forall_mem_cons,
      List.not_mem_nil, false_imp_iff, implies_true, and_true]
    have hplain : ∀ name ∈ ["n", "absent", "s", "at"], PlainName name := by
      simp only [List.forall_mem_cons, List.not_mem_nil, false_imp_iff, implies_true, and_true]
      exact ⟨⟨by decide, by decide, by decide⟩, ⟨by decide, by decide, by decide⟩,
        ⟨by decide, by decide, by decide⟩, ⟨by decide, by decide, by decide⟩⟩
    -- Each column is compared with values of its own kind, or is not stored.
    refine ⟨⟨hplain _ (by simp), ?_, fun _ _ => Value.inStep_of_kind_ne (by decide) _⟩,
      ⟨⟨hplain _ (by simp), nofun, nofun⟩,
        hplain _ (by simp), fun _ _ => .inr (.inl rfl), fun _ _ => Value.inStep_of_kind_ne (by decide) _⟩,
      hplain _ (by simp), ?_, ?_⟩
    · rintro _ ⟨⟩
      exact .inr (.inr rfl)
    · rintro _ ⟨⟩
      exact .inr (.inr rfl)
    · rintro _ ⟨⟩
      exact Value.inStep_timestamp.mpr (Moment.inStep_of_universal rfl)
  -- No comparison looks below a value that is not null.
  have hbelow :
      readingFilter.Every fun column c operand => ¬ reading.NullBelow column c operand := by
    simp only [readingFilter, Filter.every_composite, Filter.every_property, List.forall_mem_cons,
      List.not_mem_nil, false_imp_iff, implies_true, and_true]
    exact ⟨nofun, ⟨nofun, nofun⟩, nofun⟩
  obtain ⟨clause, answer, hclause, hpasses, -, -, haccepts, -⟩ :=
    accepts_ofFilter matchLaws_meets hdoc hcomparable
  have hanswer : readingFilter.accepts reading = true := by decide +kernel
  rw [(Filter.evaluates_of_passes_eq hpasses).2] at hanswer
  rw [hanswer] at hpasses
  exact ⟨clause, _, hdoc, hclause, hpasses, (haccepts hbelow).mpr hanswer⟩

/-- A null is below three, and the database's comparison misses it. -/
theorem misses_null_below :
    ∃ doc, reading.toDocument = .ok doc ∧
      (MatchLaws fun query doc => meets doc query = true) ∧
      reading.Comparable "s" (.integer 3) ∧
      Clause.ofFilter (.property (.text "s") (.known .less) (.integer 3)) =
        .ok (.compares (.text "s") .less (.integer 3)) ∧
      (Filter.property (.text "s") (.known .less) (.integer 3)).passes reading = .ok true ∧
      meets doc (Clause.compares (.text "s") .less (.integer 3)).toDatum = false := by
  have hdoc : reading.toDocument = .ok (reading.reservedFields ++ reading.columnFields) := by
    rw [Record.toDocument_eq, if_neg (by decide)]
  refine ⟨_, hdoc, matchLaws_meets, ⟨⟨by decide, by decide, by decide⟩, ?_, ?_⟩, rfl, rfl, rfl⟩
  · rintro stored ⟨⟩
    exact .inl rfl
  · exact fun _ _ => Value.inStep_of_kind_ne (by decide) _

end Document

end RecordStore
