import RecordStore.Proofs.Document.Matching
import RecordStore.Proofs.Key.Text

/-!
# Scopes in a document database

A query asks about the records of one kind, and below one key if it names an ancestor. A store
compares keys along the links above them, a database compares the texts that a document lists. For
keys that their texts tell, both find the same records (`Document.accepts_ofQuery`), whatever the
filter of the query is compiled to.
-/

namespace RecordStore

/-! ## Keys above a key -/

namespace Key

variable {k a : Key}

/-- The keys above some links end with the links that they end with. -/
theorem mem_ancestorsOf {steps : List Step} : a ∈ ancestorsOf steps ↔ a.own :: a.above <:+ steps := by
  induction steps with
  | nil => simp [ancestorsOf]
  | cons step rest ih =>
    have hsame : a = ⟨step, rest⟩ ↔ a.own :: a.above = step :: rest := by
      rw [List.cons.injEq, Key.mk.injEq]
    rw [ancestorsOf, List.mem_cons, ih, List.suffix_cons_iff, hsame]

/-- A key lies below those whose paths its own path goes on. -/
theorem mem_ancestors_iff : a ∈ k.ancestors ↔ a.path <+: k.path ∧ a.path ≠ k.path := by
  rw [ancestors, mem_ancestorsOf, path, path, List.reverse_prefix, ne_eq, List.reverse_inj,
    List.suffix_cons_iff]
  constructor
  · intro h
    refine ⟨.inr h, fun hsame => ?_⟩
    have hlength := h.length_le
    rw [hsame, List.length_cons] at hlength
    omega
  · rintro ⟨hsame | h, hother⟩
    · exact absurd hsame hother
    · exact h

/-- A key descends from the keys above it. -/
theorem descendsFrom_iff : k.descendsFrom a = true ↔ a ∈ k.ancestors := List.contains_iff_mem

/-- A key above one that its text tells is told by its own text. -/
theorem Divides.of_mem_ancestors (h : k.Divides) (ha : a ∈ k.ancestors) : a.Divides := fun s hs =>
  h s ((mem_ancestors_iff.mp ha).1.subset hs)

/-- Keys that their texts tell are above one another exactly if their texts are listed so. -/
theorem descendsFrom_iff_toText (hk : k.Divides) (ha : a.Divides) :
    k.descendsFrom a = true ↔ a.toText ∈ k.ancestors.map toText := by
  rw [descendsFrom_iff, List.mem_map]
  constructor
  · exact fun h => ⟨a, h, rfl⟩
  · rintro ⟨other, hother, htext⟩
    rwa [← eq_of_toText_eq (hk.of_mem_ancestors hother) ha htext]

end Key

namespace Document

/-! ## Databases -/

/-- What the documentation of the database says about the query documents that ask for the kind and
the ancestors of a record. -/
structure ScopeLaws (accepts : Datum → Document → Prop) : Prop where
  everything : ∀ doc, accepts (.ofFields []) doc
  all : ∀ parts ≠ [], ∀ doc,
    accepts (.ofFields [("$and", .list parts)]) doc ↔ ∀ part ∈ parts, accepts part doc
  /-- A text is asked for by the text itself. -/
  kind : ∀ doc kind stored, Assoc.get? kindField doc = some (.text stored) →
    (accepts (.ofFields [(kindField, .text kind)]) doc ↔ stored = kind)
  /-- Of a list, one of the items is asked for. -/
  ancestor : ∀ doc text items, Assoc.get? ancestorsField doc = some (.list items) →
    (accepts (.ofFields [(ancestorsField, .text text)]) doc ↔ .text text ∈ items)

/-- Whether a datum is a text. -/
def isText (text : String) : Datum → Bool
  | .text stored => stored = text
  | _ => false

theorem isText_iff {text : String} {d : Datum} : isText text d = true ↔ d = .text text := by
  cases d <;> simp [isText]

/-- Whether a field's datum, if there is one, is a text or a list that holds it. -/
def holdsText (text : String) : Option Datum → Bool
  | some (.list items) => items.any (isText text)
  | some d => isText text d
  | none => false

mutual

/-- Whether a document meets a query document in which fields may also be asked for their texts. -/
def selects (doc : Document) : Datum → Bool
  | .dict [(.text word, .list parts)] => word = "$and" && selectsAll doc parts
  | .dict [(.text name, .text text)] => holdsText text (Assoc.get? name doc)
  | query => meets doc query

/-- Whether a document meets all such query documents. -/
def selectsAll (doc : Document) : List Datum → Bool
  | [] => true
  | part :: rest => selects doc part && selectsAll doc rest

end

theorem selectsAll_iff (doc : Document) (parts : List Datum) :
    selectsAll doc parts = true ↔ ∀ part ∈ parts, selects doc part = true := by
  induction parts with
  | nil => simp [selectsAll]
  | cons part rest ih => rw [selectsAll, Bool.and_eq_true, ih, List.forall_mem_cons]

/-- The selection of documents obeys the laws. -/
theorem scopeLaws_selects : ScopeLaws fun query doc => selects doc query = true where
  everything _ := rfl
  all parts _ doc := by
    rw [← selectsAll_iff]
    simp [Datum.ofFields, selects]
  kind doc kind stored h := by
    simp [Datum.ofFields, selects, h, holdsText, isText]
  ancestor doc text items h := by
    simp only [Datum.ofFields, List.map_cons, List.map_nil, selects, h, holdsText, List.any_eq_true,
      isText_iff, exists_eq_right]

/-! ## Queries -/

variable {accepts : Datum → Document → Prop} {q : NativeQuery} {r : Record} {doc : Document}

/-- A record that has a document has this one. -/
theorem eq_document (hdoc : r.toDocument = .ok doc) : doc = r.document := by
  rw [Record.toDocument_eq] at hdoc
  split at hdoc
  · cases hdoc
  · exact (Except.ok.inj hdoc).symm

/-- The kind of a query is asked for by a condition of its own. -/
theorem accepts_kind (laws : ScopeLaws accepts) (hr : r.key.Divides) (kind : String) :
    accepts (Clause.equals kindField kind).toDatum r.document ↔ r.key.kind = .string kind := by
  obtain ⟨stored, name, hkind, -⟩ := hr r.key.own (by simp [Key.path])
  have hfield : Assoc.get? kindField r.document = some (.text stored) :=
    congrArg (fun kind => some (Datum.ofJson kind)) hkind
  rw [Clause.toDatum, laws.kind _ kind stored hfield, Key.kind, hkind, Json.string.injEq]

/-- The ancestor of a query is asked for by its text. -/
theorem accepts_ancestor (laws : ScopeLaws accepts) (hr : r.key.Divides) {a : Key} (ha : a.Divides) :
    accepts (Clause.equals ancestorsField a.toText).toDatum r.document ↔
      r.key.descendsFrom a = true := by
  have hfield : Assoc.get? ancestorsField r.document =
      some (.list (r.key.ancestors.map fun above => .text above.toText)) := rfl
  rw [Clause.toDatum, laws.ancestor _ a.toText _ hfield, Key.descendsFrom_iff_toText hr ha]
  simp

/-- A condition that is left out is met by every document. -/
theorem accepts_of_isEverything (laws : ScopeLaws accepts) {clause : Clause}
    (h : clause.isEverything = true) : accepts clause.toDatum doc := by
  cases clause <;> first | exact laws.everything doc | cases h

/-- The conditions of a query beside that of its kind. -/
def furtherClauses (q : NativeQuery) (compiled : Clause) : List Clause :=
  q.ancestor.toList.map (fun a => Clause.equals ancestorsField a.toText) ++
    if compiled.isEverything then [] else [compiled]

/-- A query compiles to its kind and the further clauses, if there are any. -/
theorem ofQuery_eq {compiled : Clause} (hfilter : Clause.ofFilter q.filter = .ok compiled) :
    ∃ clause, Clause.ofQuery q = .ok clause ∧
      ((furtherClauses q compiled = [] ∧ clause = .equals kindField q.kind) ∨
        clause = .all (.equals kindField q.kind :: furtherClauses q compiled)) := by
  rw [Clause.ofQuery, hfilter]
  dsimp only [bind, Except.bind]
  split
  · next hnone => exact ⟨_, rfl, .inl ⟨hnone, rfl⟩⟩
  · exact ⟨_, rfl, .inr rfl⟩

/-- The conditions of a query are all to be met, also where there is only that of its kind. -/
theorem accepts_clauses (laws : ScopeLaws accepts) {compiled clause : Clause}
    (h : (furtherClauses q compiled = [] ∧ clause = .equals kindField q.kind) ∨
      clause = .all (.equals kindField q.kind :: furtherClauses q compiled)) (doc : Document) :
    accepts clause.toDatum doc ↔ accepts (Clause.equals kindField q.kind).toDatum doc ∧
      ∀ part ∈ furtherClauses q compiled, accepts part.toDatum doc := by
  obtain ⟨hnone, rfl⟩ | rfl := h
  · rw [hnone]
    exact (and_iff_left (List.forall_mem_nil _)).symm
  · have hparts : Clause.toData (.equals kindField q.kind :: furtherClauses q compiled) ≠ [] := by
      rw [Clause.toData_eq_map]
      exact List.cons_ne_nil _ _
    refine (laws.all _ hparts doc).trans ?_
    rw [Clause.toData_eq_map, List.forall_mem_map, List.forall_mem_cons]

/-- Leaving out a condition that every document meets does not widen the query. -/
theorem accepts_furtherClauses (laws : ScopeLaws accepts) (hr : r.key.Divides)
    (ha : ∀ a ∈ q.ancestor, a.Divides) (compiled : Clause) :
    (∀ part ∈ furtherClauses q compiled, accepts part.toDatum r.document) ↔
      (∀ a ∈ q.ancestor, r.key.descendsFrom a = true) ∧ accepts compiled.toDatum r.document := by
  rw [furtherClauses, List.forall_mem_append, List.forall_mem_map]
  simp only [Option.mem_toList]
  refine and_congr (forall₂_congr fun a hmem => accepts_ancestor laws hr (ha a hmem)) ?_
  split
  · next heverything =>
    exact iff_of_true (List.forall_mem_nil _) (accepts_of_isEverything laws heverything)
  · exact List.forall_mem_singleton

/-- A key lies below another one exactly if its path goes on the other's path. For keys that their
texts tell, it does so exactly if the other's text is listed among those of the keys above it. So
the database accepts the document of a record under a query exactly if the record is of the kind of
the query, lies below its ancestor, if there is one, and its document meets the condition that the
filter of the query is compiled to. A query fails to compile exactly where its filter does. -/
theorem accepts_ofQuery (laws : ScopeLaws accepts) :
    (∀ k a : Key, k.Divides → a.Divides →
      (k.descendsFrom a = true ↔ a.path <+: k.path ∧ a.path ≠ k.path) ∧
        (k.descendsFrom a = true ↔ a.toText ∈ k.ancestors.map Key.toText)) ∧
      ∀ (q : NativeQuery) (r : Record) (doc : Document), r.toDocument = .ok doc → r.key.Divides →
        (∀ a ∈ q.ancestor, a.Divides) →
        (∀ compiled, Clause.ofFilter q.filter = .ok compiled →
          ∃ clause, Clause.ofQuery q = .ok clause ∧
            (accepts clause.toDatum doc ↔
              r.key.kind = .string q.kind ∧ (∀ a ∈ q.ancestor, r.key.descendsFrom a = true) ∧
                accepts compiled.toDatum doc)) ∧
        ∀ e, Clause.ofFilter q.filter = .error e → Clause.ofQuery q = .error e := by
  refine ⟨fun k a hk ha => ⟨?_, Key.descendsFrom_iff_toText hk ha⟩, ?_⟩
  · rw [Key.descendsFrom_iff, Key.mem_ancestors_iff]
  intro q r doc hdoc hr ha
  obtain rfl := eq_document hdoc
  refine ⟨fun compiled hfilter => ?_, fun e hfilter => ?_⟩
  · obtain ⟨clause, hclause, hparts⟩ := ofQuery_eq hfilter
    refine ⟨clause, hclause, ?_⟩
    rw [accepts_clauses laws hparts, accepts_kind laws hr, accepts_furtherClauses laws hr ha]
  · rw [Clause.ofQuery, hfilter]
    rfl

/-- A record below two others, with a colon in its own name, is among the open tasks of its project.
-/
theorem accepts_ofQuery_nested :
    let project : Step := .ofTexts "Project" "p1" (by decide) (by decide)
    let task : Record := ⟨⟨.ofTexts "Task" "b:c" (by decide) (by decide),
      [.ofTexts "List" "l" (by decide) (by decide), project]⟩, [("state", .string "open")], []⟩
    let q : NativeQuery :=
      { kind := "Task", filter := .property (.text "state") (.known .equal) (.string "open"),
        ancestor := some ⟨project, []⟩ }
    task.key.Divides ∧ (∀ a ∈ q.ancestor, a.Divides) ∧
      ∃ doc clause, task.toDocument = .ok doc ∧ Clause.ofQuery q = .ok clause ∧
        ScopeLaws (fun query doc => selects doc query = true) ∧ selects doc clause.toDatum = true := by
  intro project task q
  have hproject : project.Divides := ⟨_, _, rfl, rfl, by decide, by decide⟩
  -- A colon in a name does no harm; the kinds have none.
  have hkey : task.key.Divides :=
    List.forall_mem_cons.mpr ⟨hproject,
      List.forall_mem_cons.mpr ⟨⟨_, _, rfl, rfl, by decide, by decide⟩,
        List.forall_mem_singleton.mpr ⟨_, _, rfl, rfl, by decide, by decide⟩⟩⟩
  have hancestor : ∀ a ∈ q.ancestor, a.Divides := by
    rintro a ⟨⟩
    exact List.forall_mem_singleton.mpr hproject
  have hdoc : task.toDocument = .ok task.document := by
    rw [Record.toDocument_eq, if_neg (by decide)]
    rfl
  obtain ⟨hkeys, hquery⟩ := accepts_ofQuery scopeLaws_selects
  obtain ⟨clause, hclause, haccepts⟩ := (hquery q task _ hdoc hkey hancestor).1 _ rfl
  refine ⟨hkey, hancestor, _, clause, hdoc, hclause, scopeLaws_selects, haccepts.mpr ⟨rfl, ?_, ?_⟩⟩
  · rintro a ⟨⟩
    exact (hkeys _ _ hkey (hancestor _ rfl)).1.mpr (by decide)
  · decide +kernel

end Document

end RecordStore
