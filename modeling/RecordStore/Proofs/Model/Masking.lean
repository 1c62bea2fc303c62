import Mathlib.Data.Set.Insert
import RecordStore.Model.Codec
import RecordStore.Proofs.Model.Reading
import RecordStore.Proofs.Result

/-!
# What a mask leaves

A mask keeps the paths that it lists, and the identifier field if it lists nothing of it
(`FieldMask.kept`). `Masked` says what an instance looks like under a set of kept paths, without the
tree that a mask is turned into, and `Model.applyMask` gives such an instance (`Model.masked_applyMask`).
Whether the part at a path is still the same can then be read off the kept paths (`Keeps`), and so can
what stands in its place if it is not (`Replaces`).
-/

namespace RecordStore

/-! ## Kept paths -/

/-- The rests of the paths that begin with a name. -/
def after (name : String) (paths : Set (List String)) : Set (List String) :=
  {rest | name :: rest ∈ paths}

/-- The paths that a mask keeps. -/
def FieldMask.kept (idField : String) (m : FieldMask) : Set (List String) :=
  {names | (∃ path ∈ m.paths, MaskTree.names path = names) ∨
    names = [idField] ∧ ∀ path ∈ m.paths, (MaskTree.names path).head? ≠ some idField}

/-- An instance of a known model, of which a mask can keep a part. -/
def Catalog.TakesApart (c : Catalog) (d : Datum) : Prop :=
  ∃ shape fields given schema, d = .model shape fields given ∧ c.find? shape.name = some schema

/-- Whether a datum is an instance. -/
def Datum.isModel : Datum → Bool
  | .model _ _ _ => true
  | _ => false

/-- The instances in a datum have the fields of their models. -/
inductive Catalog.Knows (c : Catalog) : Datum → Prop
  | model {shape : Shape} {fields : List (String × Datum)} {given : List String}
      (names : ∀ schema, c.find? shape.name = some schema →
        fields.map Prod.fst = schema.fields.map Field.name)
      (parts : ∀ field ∈ fields, c.Knows field.2) : c.Knows (.model shape fields given)
  | other {d : Datum} (h : d.isModel = false) : c.Knows d

/-- What some kept paths leave of a datum: all of it where a path ends, and where there is no instance
that could be taken apart; otherwise the fields that a path goes on with, the others being cleared. -/
inductive Masked (c : Catalog) : Set (List String) → Datum → Datum → Prop
  | listed {paths : Set (List String)} {d : Datum} (ends : [] ∈ paths) : Masked c paths d d
  | whole {paths : Set (List String)} {d : Datum} (h : ¬ c.TakesApart d) : Masked c paths d d
  | model {paths : Set (List String)} {shape : Shape} {schema : Schema}
      {fields left : List (String × Datum)} {given given' : List String} (ends : [] ∉ paths)
      (known : c.find? shape.name = some schema)
      (names : left.map Prod.fst = schema.fields.map Field.name)
      (set : ∀ name, name ∈ given' ↔ name ∈ schema.fields.map Field.name ∧ (after name paths).Nonempty)
      (cleared : ∀ name field, schema.field? name = some field → after name paths = ∅ →
        Assoc.get? name left = some field.cleared.2)
      (parts : ∀ name part part', Assoc.get? name fields = some part →
        Assoc.get? name left = some part' → (after name paths).Nonempty →
        Masked c (after name paths) part part') :
      Masked c paths (.model shape fields given) (.model schema.shape left given')

/-! ## Known models -/

/-- Whether values of a type hold instances, or could. -/
def FieldType.isOpen : FieldType → Bool
  | .model _ _ | .optional _ | .union _ | .literal _ => true
  | _ => false

/-- All models that a type speaks of are known. -/
inductive Catalog.Describes (c : Catalog) : FieldType → Prop
  | model {name : String} {fields : List Field} (known : c.find? name = some ⟨name, fields⟩)
      (types : ∀ field ∈ fields, c.Describes field.type)
      (initials : ∀ field ∈ fields, ∀ d, field.initial = some d → c.Knows d) :
      c.Describes (.model name fields)
  | optional {inner : FieldType} (h : c.Describes inner) : c.Describes (.optional inner)
  | union {choices : List FieldType} (h : ∀ type ∈ choices, c.Describes type) :
      c.Describes (.union choices)
  | literal {choices : List Datum} (h : ∀ d ∈ choices, c.Knows d) : c.Describes (.literal choices)
  | closed {type : FieldType} (h : type.isOpen = false) : c.Describes type

/-- JSON holds no instances. -/
theorem Datum.isModel_ofJson (value : Json) : (Datum.ofJson value).isModel = false := by
  cases value <;> rfl

/-- No instance is read of a type that has none. -/
theorem Model.isModel_of_readType {type : FieldType} (h : type.isOpen = false) {value : Json} {d : Datum}
    (hread : readType value type = some d) : d.isModel = false := by
  have hmap {α : Type} {f : α → Datum} {found : Option α} (hf : ∀ a, (f a).isModel = false)
      (heq : found.map f = some d) : d.isModel = false := by
    obtain ⟨a, -, rfl⟩ := Option.map_eq_some_iff.mp heq
    exact hf a
  cases type
  -- The open types are excluded, and all others build data that are no instances.
  case model | optional | union | literal => cases h
  case any =>
    cases hread
    exact Datum.isModel_ofJson _
  case integer | double | boolean => exact hmap (fun _ => rfl) hread
  case timestamp =>
    have hstamp (t : Calendar.Timestamp) : (ofTimestamp t).isModel = false := by
      cases t <;> rfl
    unfold readType readStamp? at hread
    split at hread
    · exact hmap hstamp hread
    · exact hmap hstamp hread
    · exact hmap hstamp hread
    · cases hread
  all_goals
    unfold readType at hread
    split at hread
    · first
        | exact hmap (fun _ => rfl) hread
        | cases hread; rfl
    · cases hread

/-- What is read of a type whose models are known is known. -/
theorem Catalog.Describes.knows {c : Catalog} {type : FieldType} (h : c.Describes type) {value : Json}
    {d : Datum} (hread : Model.readType value type = some d) : c.Knows d := by
  induction h generalizing value d with
  | @model name fields known types initials ih =>
    unfold Model.readType at hread
    split at hread
    · next members =>
      obtain ⟨ds, hds, rfl⟩ := Option.map_eq_some_iff.mp hread
      have hfields := Model.readFields_eq_some.mp hds
      -- The fields that are read are those of the schema, with values of their types or defaults.
      refine .model (fun schema hschema => ?_) (forall_mem_of_forall₂ hfields fun field hfield d hd => ?_)
      · obtain rfl := Option.some.inj (known.symm.trans hschema)
        exact List.forall₂_eq_eq_eq ▸ List.forall₂_map_left_iff.mpr (List.forall₂_map_right_iff.mpr
          (hfields.imp fun field d hd => Model.fst_of_readField hd).flip)
      · obtain ⟨_, hread⟩ | hinitial := Model.snd_of_readField hd
        · exact ih field hfield hread
        · exact initials field hfield _ hinitial
    · cases hread
  | optional h ih =>
    unfold Model.readType at hread
    split at hread
    · cases hread
      exact .other rfl
    · exact ih hread
  | union h ih =>
    obtain ⟨type, hmem, hread⟩ := Model.exists_of_readType_union hread
    exact ih type hmem hread
  | literal h =>
    unfold Model.readType Model.readChoice? at hread
    split at hread
    · cases hread
    · cases hread
    · exact h d (List.mem_of_find?_eq_some hread)
  | closed h => exact .other (Model.isModel_of_readType h hread)

/-! ## Trees -/

namespace MaskTree

variable {name : String} {names rest : List String} {paths : Set (List String)}
  {parts : List (String × MaskTree)}

/-- A tree is the one of some paths: a leaf where a path ends, and elsewhere a branch with a part for
each name that a path goes on with. -/
inductive Represents : MaskTree → Set (List String) → Prop
  | leaf {paths : Set (List String)} (ends : [] ∈ paths) : Represents .leaf paths
  | branch {paths : Set (List String)} {parts : List (String × MaskTree)} (ends : [] ∉ paths)
      (missing : ∀ name, Assoc.get? name parts = none → after name paths = ∅)
      (nonempty : ∀ name tree, Assoc.get? name parts = some tree → (after name paths).Nonempty)
      (represents : ∀ name tree, Assoc.get? name parts = some tree →
        Represents tree (after name paths)) : Represents (.branch parts) paths

/-- A path that begins with a name adds its rest. -/
theorem after_union_self : after name ({name :: rest} ∪ paths) = {rest} ∪ after name paths := by
  ext tail
  simp [after]

/-- A path that begins with another name adds nothing. -/
theorem after_union_of_ne {other : String} (h : other ≠ name) :
    after other ({name :: rest} ∪ paths) = after other paths := by
  ext tail
  simp [after, h]

/-- A path is added to a tree in the part of its first name. -/
theorem Represents.extend {parts' : List (String × MaskTree)} {tree : MaskTree}
    (h : Represents (.branch parts) paths) (hself : Assoc.get? name parts' = some tree)
    (hother : ∀ other, other ≠ name → Assoc.get? other parts' = Assoc.get? other parts)
    (htree : Represents tree ({rest} ∪ after name paths)) :
    Represents (.branch parts') ({name :: rest} ∪ paths) := by
  cases h with
  | branch hends hmissing hnonempty hrepresents =>
    refine .branch ?_ (fun other hget => ?_) (fun other part hget => ?_) fun other part hget => ?_
    · rintro (hnil | hmem)
      · cases hnil
      · exact hends hmem
    -- Each remaining question is asked of the name of the path and of all others.
    all_goals
      obtain rfl | hne := eq_or_ne other name
    · rw [hself] at hget
      cases hget
    · rw [hother other hne] at hget
      rw [after_union_of_ne hne, hmissing other hget]
    · rw [after_union_self]
      exact ⟨rest, .inl rfl⟩
    · rw [hother other hne] at hget
      rw [after_union_of_ne hne]
      exact hnonempty other part hget
    · rw [hself] at hget
      cases hget
      rw [after_union_self]
      exact htree
    · rw [hother other hne] at hget
      rw [after_union_of_ne hne]
      exact hrepresents other part hget

/-- The branch without parts is that of no paths. -/
theorem represents_nil : Represents (.branch []) ∅ :=
  .branch (Set.notMem_empty _) (fun _ _ => rfl) nofun nofun

/-- Adding a path to the parts of a branch adds it to its paths. -/
theorem Represents.insert (hne : names ≠ []) (h : Represents (.branch parts) paths) :
    Represents (.branch (MaskTree.insert names parts)) ({names} ∪ paths) := by
  fun_induction MaskTree.insert names parts generalizing paths with
  | case1 => exact absurd rfl hne
  | case2 parts name =>
    exact h.extend (Assoc.get?_put_self ..) (fun other hother => Assoc.get?_put_of_ne hother ..)
      (.leaf (.inl rfl))
  | case3 parts name rest hrest hleaf =>
    -- The leaf that is in place keeps what the longer path would.
    have hends : [] ∈ after name paths := by
      cases h with
      | branch _ _ _ hrepresents =>
        cases hrepresents name .leaf hleaf with
        | leaf ends => exact ends
    exact h.extend hleaf (fun _ _ => rfl) (.leaf (.inr hends))
  | case4 parts name rest hrest below hbranch ih =>
    have hbelow : Represents (.branch below) (after name paths) := by
      cases h with
      | branch _ _ _ hrepresents => exact hrepresents name _ hbranch
    exact h.extend (Assoc.get?_put_self ..) (fun other hother => Assoc.get?_put_of_ne hother ..)
      (ih hrest hbelow)
  | case5 parts name rest hrest hnone ih =>
    have hempty : after name paths = ∅ := by
      cases h with
      | branch _ hmissing _ _ => exact hmissing name hnone
    refine h.extend (Assoc.get?_put_self ..) (fun other hother => Assoc.get?_put_of_ne hother ..) ?_
    rw [hempty]
    exact ih hrest represents_nil

/-- Paths that are added one after the other are added to those of a branch. -/
theorem Represents.insertAll {added : List (List String)} (hadded : ∀ names ∈ added, names ≠ [])
    (h : Represents (.branch parts) paths) :
    Represents (.branch (added.foldl (fun parts names => MaskTree.insert names parts) parts))
      ({names | names ∈ added} ∪ paths) := by
  induction added generalizing parts paths with
  | nil =>
    have hset : {names : List String | names ∈ []} ∪ paths = paths := by simp
    rw [hset]
    exact h
  | cons names added ih =>
    obtain ⟨hne, hrest⟩ := List.forall_mem_cons.mp hadded
    have hset : {other | other ∈ names :: added} ∪ paths =
        {other | other ∈ added} ∪ ({names} ∪ paths) := by
      ext other
      simp only [List.mem_cons, Set.mem_union, Set.mem_ofPred_eq, Set.mem_singleton_iff]
      rw [or_assoc, or_left_comm]
    rw [hset]
    exact ih hrest (h.insert hne)

/-- The tree of some paths represents them. -/
theorem represents_ofPaths (listed : List String) :
    Represents (.branch (ofPaths listed)) {names | ∃ path ∈ listed, MaskTree.names path = names} := by
  have hset : {names | ∃ path ∈ listed, MaskTree.names path = names} =
      {names | names ∈ (listed.map MaskTree.names).mergeSort fun a b => a.length ≤ b.length} ∪ ∅ := by
    ext names
    simp
  rw [hset]
  refine represents_nil.insertAll fun names hnames => ?_
  obtain ⟨path, -, rfl⟩ := List.mem_map.mp (List.mem_mergeSort.mp hnames)
  exact Text.dottedNames_ne_nil path

/-- The tree that an instance is masked with represents what the mask keeps. -/
theorem represents_kept (idField : String) (m : FieldMask) :
    Represents (.branch (if Assoc.contains idField (ofPaths m.paths) then ofPaths m.paths
      else ofPaths m.paths ++ [(idField, .leaf)])) (m.kept idField) := by
  have hlisted := represents_ofPaths m.paths
  -- The identifier is added only if no path goes through it.
  have hafter : (∀ path ∈ m.paths, (MaskTree.names path).head? ≠ some idField) ↔
      after idField {names | ∃ path ∈ m.paths, MaskTree.names path = names} = ∅ := by
    rw [Set.eq_empty_iff_forall_notMem]
    constructor
    · rintro hnone rest ⟨path, hpath, hnames⟩
      exact hnone path hpath (hnames ▸ rfl)
    · intro hnone path hpath hhead
      obtain ⟨rest, hrest⟩ := List.head?_eq_some_iff.mp hhead
      exact hnone rest ⟨path, hpath, hrest⟩
  rw [Assoc.contains]
  cases hget : Assoc.get? idField (ofPaths m.paths) with
  | some tree =>
    rw [Option.isSome_some, if_pos rfl]
    have hkept : m.kept idField = {names | ∃ path ∈ m.paths, MaskTree.names path = names} := by
      cases hlisted with
      | branch _ _ hnonempty _ =>
        ext names
        refine or_iff_left fun ⟨_, hnone⟩ => ?_
        exact (hnonempty idField tree hget).ne_empty (hafter.mp hnone)
    rw [hkept]
    exact hlisted
  | none =>
    rw [Option.isSome_none, if_neg Bool.false_ne_true]
    have hempty : after idField {names | ∃ path ∈ m.paths, MaskTree.names path = names} = ∅ := by
      cases hlisted with
      | branch _ hmissing _ _ => exact hmissing idField hget
    have hkept : m.kept idField =
        {[idField]} ∪ {names | ∃ path ∈ m.paths, MaskTree.names path = names} := by
      ext names
      exact or_comm.trans (or_congr_left (and_iff_left (hafter.mpr hempty)))
    have hself : Assoc.get? idField (ofPaths m.paths ++ [(idField, MaskTree.leaf)]) = some .leaf := by
      rw [Assoc.get?_append, hget, Option.none_or, Assoc.get?, if_pos rfl]
    rw [hkept]
    -- It is added behind the parts, none of which has its name.
    refine hlisted.extend hself (fun other hother => ?_) (.leaf (.inl rfl))
    rw [Assoc.get?_append, Assoc.get?, if_neg hother.symm, Assoc.get?, Option.or_none]

/-! ## Masked instances -/

/-- A field is kept as its part of the branch says, if there are both. -/
theorem get?_keepParts (c : Catalog) (fields : List (String × Datum)) (name : String) :
    Assoc.get? name (keepParts c fields parts) =
      (Assoc.get? name parts).bind fun tree => (Assoc.get? name fields).map fun d => keep c d tree := by
  induction parts with
  | nil => rfl
  | cons part parts ih =>
    obtain ⟨first, tree⟩ := part
    by_cases hname : first = name
    · subst hname
      rw [keepParts, Assoc.get?, if_pos rfl, Option.bind_some]
      cases hfield : Assoc.get? first fields with
      | some d => simp [Assoc.get?]
      | none => simp [ih, hfield]
    · rw [keepParts, Assoc.get?, if_neg hname, ← ih]
      cases hfield : Assoc.get? first fields with
      | some d => simp [Assoc.get?, hname]
      | none => simp

end MaskTree

/-- What is kept for each field is found under its name. -/
theorem Schema.get?_fields (s : Schema) (f : Field → Datum) (name : String) :
    Assoc.get? name (s.fields.map fun field => (field.name, f field)) = (s.field? name).map f := by
  rw [Schema.field?]
  induction s.fields with
  | nil => rfl
  | cons field fields ih =>
    by_cases h : field.name = name
    · simp [Assoc.get?, h]
    · simp [Assoc.get?, h, ih]

/-- A field is found under its own name. -/
theorem Schema.name_of_field? {s : Schema} {name : String} {field : Field}
    (h : s.field? name = some field) : field.name = name := by
  have hfound := List.find?_some h
  exact of_decide_eq_true hfound

/-- There is a field for each name. -/
theorem Schema.exists_field? {s : Schema} {name : String} (h : name ∈ s.fields.map Field.name) :
    ∃ field, s.field? name = some field := by
  obtain ⟨field, hfield, hname⟩ := List.mem_map.mp h
  exact Option.isSome_iff_exists.mp
    (List.find?_isSome.mpr ⟨field, hfield, decide_eq_true hname⟩)

/-- An instance of a known model has its fields. -/
theorem Catalog.Knows.of_find? {c : Catalog} {shape : Shape} {schema : Schema}
    {fields : List (String × Datum)} {given : List String} (h : c.Knows (.model shape fields given))
    (known : c.find? shape.name = some schema) :
    fields.map Prod.fst = schema.fields.map Field.name ∧ ∀ field ∈ fields, c.Knows field.2 := by
  cases h with
  | model names parts => exact ⟨names schema known, parts⟩
  | other h => cases h

/-- What is not taken apart is kept whole. -/
theorem MaskTree.keep_of_not_takesApart {c : Catalog} {d : Datum} (h : ¬ c.TakesApart d)
    (parts : List (String × MaskTree)) : MaskTree.keep c d (.branch parts) = d := by
  unfold MaskTree.keep
  split
  · next shape fields given =>
    split
    · next schema hfind => exact absurd ⟨_, _, _, schema, rfl, hfind⟩ h
    · rfl
  · rfl

/-- An instance of a known model is filled with what the parts of a branch keep of its fields. -/
theorem MaskTree.keep_model {c : Catalog} {shape : Shape} {schema : Schema}
    {fields : List (String × Datum)} {given : List String} {parts : List (String × MaskTree)}
    (known : c.find? shape.name = some schema) :
    MaskTree.keep c (.model shape fields given) (.branch parts) =
      schema.fill (MaskTree.keepParts c fields parts) := by
  simp only [MaskTree.keep, known]

/-- What the tree of some paths keeps is what the paths leave. -/
theorem masked_keep {c : Catalog} {tree : MaskTree} {paths : Set (List String)}
    (h : tree.Represents paths) {d : Datum} (hd : c.Knows d) :
    Masked c paths d (MaskTree.keep c d tree) := by
  induction h generalizing d with
  | leaf ends =>
    rw [MaskTree.keep]
    exact .listed ends
  | @branch paths parts hends hmissing hnonempty _ ih =>
    by_cases htakes : c.TakesApart d
    · obtain ⟨shape, fields, given, schema, rfl, hfind⟩ := htakes
      obtain ⟨hnames, hparts⟩ := hd.of_find? hfind
      have hget (name : String) : Assoc.get? name (MaskTree.keepParts c fields parts) =
          (Assoc.get? name parts).bind fun tree =>
            (Assoc.get? name fields).map fun d => MaskTree.keep c d tree :=
        MaskTree.get?_keepParts c fields name
      rw [MaskTree.keep_model hfind]
      -- The names, the fields that were given, what is cleared, and what is kept in part.
      refine .model hends hfind ?_ (fun name => ?_) (fun name field hfield hempty => ?_)
        fun name part part' hpart hpart' hne => ?_
      · rw [List.map_map]
        rfl
      · rw [Schema.givenNames, List.mem_filter]
        refine and_congr_right fun hname => ?_
        rw [← hnames, ← Assoc.keys, ← Assoc.isSome_get?_iff] at hname
        obtain ⟨d, hd⟩ := Option.isSome_iff_exists.mp hname
        rw [Assoc.contains, hget, hd]
        cases htree : Assoc.get? name parts with
        | none => simp [hmissing name htree]
        | some tree => simpa using hnonempty name tree htree
      · rw [Schema.get?_fields, hfield, Option.map_some, Schema.name_of_field? hfield, hget]
        cases htree : Assoc.get? name parts with
        | none => rfl
        | some tree => exact absurd hempty (hnonempty name tree htree).ne_empty
      · rw [Schema.get?_fields] at hpart'
        obtain ⟨field, hfield, rfl⟩ := Option.map_eq_some_iff.mp hpart'
        rw [Schema.name_of_field? hfield, hget, hpart]
        cases htree : Assoc.get? name parts with
        | none => exact absurd (hmissing name htree) hne.ne_empty
        | some tree => exact ih name tree htree (hparts _ (Assoc.mem_of_get?_eq_some hpart))
    · rw [MaskTree.keep_of_not_takesApart htakes]
      exact .whole htakes

/-- An instance is masked to what the kept paths leave of it. -/
theorem Model.masked_applyMask {c : Catalog} (idField : String) (m : FieldMask) {d : Datum}
    (hd : c.Knows d) : Masked c (m.kept idField) d (applyMask c idField m d) :=
  masked_keep (MaskTree.represents_kept idField m) hd

/-! ## Parts of masked instances -/

/-- The part at a path is still the same: a kept path ends above it, or what stands above it is not
taken apart, or it is none. -/
inductive Keeps (c : Catalog) : Set (List String) → Datum → List String → Prop
  | listed {paths : Set (List String)} {d : Datum} {names : List String} (ends : [] ∈ paths) :
      Keeps c paths d names
  | whole {paths : Set (List String)} {d : Datum} {names : List String} (h : ¬ c.TakesApart d) :
      Keeps c paths d names
  | inside {paths : Set (List String)} {shape : Shape} {fields : List (String × Datum)}
      {given rest : List String} {name : String} {part : Datum}
      (field : Assoc.get? name fields = some part) (listed : (after name paths).Nonempty)
      (kept : Keeps c (after name paths) part rest) :
      Keeps c paths (.model shape fields given) (name :: rest)
  | absent {paths : Set (List String)} {shape : Shape} {fields : List (String × Datum)}
      {given rest : List String} {name : String} (field : Assoc.get? name fields = none)
      (ne : name ≠ "model_fields_set") : Keeps c paths (.model shape fields given) (name :: rest)

/-- What stands in the place of a part that is not kept: a part of a cleared field, an instance that
is masked itself, or the names of the fields that are left. -/
inductive Replaces (c : Catalog) : Set (List String) → Datum → List String → Datum → Prop
  | cleared {paths : Set (List String)} {shape : Shape} {fields : List (String × Datum)}
      {given rest : List String} {name : String} {schema : Schema} {field : Field}
      (known : c.find? shape.name = some schema) (declared : schema.field? name = some field)
      (unlisted : after name paths = ∅) :
      Replaces c paths (.model shape fields given) (name :: rest) (field.cleared.2.follow rest)
  | masked {paths : Set (List String)} {d d' : Datum} (apart : c.TakesApart d) (h : Masked c paths d d') :
      Replaces c paths d [] d'
  | given {paths : Set (List String)} {shape : Shape} {fields : List (String × Datum)}
      {given given' rest : List String} {schema : Schema} (known : c.find? shape.name = some schema)
      (set : ∀ name, name ∈ given' ↔
        name ∈ schema.fields.map Field.name ∧ (after name paths).Nonempty) :
      Replaces c paths (.model shape fields given) ("model_fields_set" :: rest)
        ((Datum.set (given'.map .text)).follow rest)
  | inside {paths : Set (List String)} {shape : Shape} {fields : List (String × Datum)}
      {given rest : List String} {name : String} {part d : Datum}
      (field : Assoc.get? name fields = some part) (listed : (after name paths).Nonempty)
      (replaces : Replaces c (after name paths) part rest d) :
      Replaces c paths (.model shape fields given) (name :: rest) d

theorem Datum.modelPart_of_get?_eq_some {fields : List (String × Datum)} {name : String} {d : Datum}
    (h : Assoc.get? name fields = some d) (given : List String) : modelPart fields given name = d := by
  simp only [modelPart, h]

/-- Without a field of a name, only the names of the given fields depend on the instance. -/
theorem Datum.modelPart_of_get?_eq_none {fields left : List (String × Datum)} {name : String}
    (h : Assoc.get? name fields = none) (h' : Assoc.get? name left = none)
    (hne : name ≠ "model_fields_set") (given given' : List String) :
    modelPart left given' name = modelPart fields given name := by
  unfold modelPart
  rw [h, h']
  split <;> simp_all

/-- An instance of a known model is taken apart. -/
theorem Catalog.takesApart_model {c : Catalog} {shape : Shape} {schema : Schema}
    (known : c.find? shape.name = some schema) (fields : List (String × Datum)) (given : List String) :
    c.TakesApart (.model shape fields given) :=
  ⟨shape, fields, given, schema, rfl, known⟩

/-- Where no path ends, an instance that is taken apart keeps no more than its fields do. -/
theorem keeps_model_iff {c : Catalog} {paths : Set (List String)} {shape : Shape} {schema : Schema}
    {fields : List (String × Datum)} {given rest : List String} {name : String} (ends : [] ∉ paths)
    (known : c.find? shape.name = some schema) :
    Keeps c paths (.model shape fields given) (name :: rest) ↔
      (∃ part, Assoc.get? name fields = some part ∧ (after name paths).Nonempty ∧
        Keeps c (after name paths) part rest) ∨
      Assoc.get? name fields = none ∧ name ≠ "model_fields_set" := by
  constructor
  · intro h
    cases h with
    | listed h => exact absurd h ends
    | whole h => exact absurd (Catalog.takesApart_model known fields given) h
    | inside field listed kept => exact .inl ⟨_, field, listed, kept⟩
    | absent field ne => exact .inr ⟨field, ne⟩
  · rintro (⟨part, field, listed, kept⟩ | ⟨field, ne⟩)
    · exact .inside field listed kept
    · exact .absent field ne

/-- A part of a masked instance is the one of the whole instance if it is kept, and what replaces it
otherwise. -/
def Tells (c : Catalog) (paths : Set (List String)) (d : Datum) (names : List String)
    (part part' : Datum) : Prop :=
  (Keeps c paths d names → part' = part) ∧ (¬ Keeps c paths d names → Replaces c paths d names part')

section

variable {c : Catalog} {paths : Set (List String)}

/-- A part that is kept stays as it is. -/
theorem tells_of_keeps {d part : Datum} {names : List String} (h : Keeps c paths d names) :
    Tells c paths d names part part :=
  ⟨fun _ => rfl, fun hnot => absurd h hnot⟩

/-- A masked instance itself. -/
theorem Masked.tells_nil {d d' : Datum} (h : Masked c paths d d') : Tells c paths d [] d d' := by
  by_cases hkept : [] ∈ paths ∨ ¬ c.TakesApart d
  · refine ⟨fun _ => ?_, fun hnot => absurd (hkept.elim .listed .whole) hnot⟩
    cases h with
    | listed | whole => rfl
    | model ends known => exact absurd hkept (not_or.mpr ⟨ends, not_not_intro
        (Catalog.takesApart_model known _ _)⟩)
  · obtain ⟨ends, apart⟩ := not_or.mp hkept
    refine ⟨fun hkeeps => ?_, fun _ => .masked (not_not.mp apart) h⟩
    cases hkeeps with
    | listed h => exact absurd h ends
    | whole h => exact absurd h apart

variable {shape : Shape} {schema : Schema} {fields left : List (String × Datum)}
  {given given' rest : List String} {name : String}

/-- What an instance has besides its fields. -/
theorem tells_of_no_field (ends : [] ∉ paths) (known : c.find? shape.name = some schema)
    (hset : ∀ name, name ∈ given' ↔ name ∈ schema.fields.map Field.name ∧ (after name paths).Nonempty)
    (hfield : Assoc.get? name fields = none) (hleft : Assoc.get? name left = none) :
    Tells c paths (.model shape fields given) (name :: rest)
      ((Datum.modelPart fields given name).follow rest)
      ((Datum.modelPart left given' name).follow rest) := by
  obtain rfl | hne := eq_or_ne name "model_fields_set"
  · have hpart : Datum.modelPart left given' "model_fields_set" = .set (given'.map .text) := by
      simp only [Datum.modelPart, hleft]
    rw [hpart]
    refine ⟨fun hkept => ?_, fun _ => .given known hset⟩
    obtain ⟨part, hpart, -⟩ | ⟨-, hne⟩ := (keeps_model_iff ends known).mp hkept
    · rw [hfield] at hpart
      cases hpart
    · exact absurd rfl hne
  · rw [Datum.modelPart_of_get?_eq_none hfield hleft hne given given']
    exact tells_of_keeps (.absent hfield hne)

/-- A field of which no path is listed. -/
theorem tells_of_unlisted {field : Field} {part : Datum} (ends : [] ∉ paths)
    (known : c.find? shape.name = some schema) (hfield : Assoc.get? name fields = some part)
    (hdeclared : schema.field? name = some field) (hempty : after name paths = ∅) :
    Tells c paths (.model shape fields given) (name :: rest) (part.follow rest)
      (field.cleared.2.follow rest) := by
  refine ⟨fun hkept => ?_, fun _ => .cleared known hdeclared hempty⟩
  obtain ⟨-, -, hne, -⟩ | ⟨hnone, -⟩ := (keeps_model_iff ends known).mp hkept
  · exact absurd hempty hne.ne_empty
  · rw [hfield] at hnone
    cases hnone

/-- A field of which a path is listed. -/
theorem tells_of_listed {part part' : Datum} (ends : [] ∉ paths)
    (known : c.find? shape.name = some schema) (hfield : Assoc.get? name fields = some part)
    (hlisted : (after name paths).Nonempty)
    (h : Tells c (after name paths) part rest (part.follow rest) (part'.follow rest)) :
    Tells c paths (.model shape fields given) (name :: rest) (part.follow rest) (part'.follow rest) := by
  refine ⟨fun hkept => ?_, fun hnot => .inside hfield hlisted (h.2 fun hkept =>
    hnot (.inside hfield hlisted hkept))⟩
  obtain ⟨other, hother, -, hkept⟩ | ⟨hnone, -⟩ := (keeps_model_iff ends known).mp hkept
  · obtain rfl := Option.some.inj (hfield.symm.trans hother)
    exact h.1 hkept
  · rw [hfield] at hnone
    cases hnone

end

/-- The part at a path of a masked instance is the one of the whole instance if it is kept, and what
replaces it otherwise. -/
theorem Masked.follow {c : Catalog} {paths : Set (List String)} {d d' : Datum} (h : Masked c paths d d')
    (hd : c.Knows d) (names : List String) :
    (Keeps c paths d names → d'.follow names = d.follow names) ∧
      (¬ Keeps c paths d names → Replaces c paths d names (d'.follow names)) := by
  change Tells c paths d names (d.follow names) (d'.follow names)
  -- Nothing is said about the masked fields of a field but that they are masked, so that the
  -- induction is on the path.
  induction names generalizing paths d d' with
  | nil => exact h.tells_nil
  | cons name rest ih =>
    cases h with
    | listed ends => exact tells_of_keeps (.listed ends)
    | whole h => exact tells_of_keeps (.whole h)
    | @model _ shape schema fields left given given' ends known hnames hset hcleared hparts =>
      have hfollow (shape : Shape) (fields : List (String × Datum)) (given : List String) :
          (Datum.model shape fields given).follow (name :: rest) =
            (Datum.modelPart fields given name).follow rest := rfl
      obtain ⟨hfields, hknown⟩ := hd.of_find? known
      have hkeys : Assoc.keys left = Assoc.keys fields := hnames.trans hfields.symm
      rw [hfollow, hfollow]
      cases hfield : Assoc.get? name fields with
      | none =>
        have hleft : Assoc.get? name left = none := by
          rw [Assoc.get?_eq_none_iff] at hfield ⊢
          rwa [hkeys]
        exact tells_of_no_field ends known hset hfield hleft
      | some part =>
        have hmem : name ∈ Assoc.keys fields :=
          Assoc.isSome_get?_iff.mp (Option.isSome_iff_exists.mpr ⟨part, hfield⟩)
        obtain ⟨part', hpart'⟩ : ∃ part', Assoc.get? name left = some part' :=
          Option.isSome_iff_exists.mp (Assoc.isSome_get?_iff.mpr (hkeys ▸ hmem))
        rw [Datum.modelPart_of_get?_eq_some hfield, Datum.modelPart_of_get?_eq_some hpart']
        by_cases hlisted : (after name paths).Nonempty
        · exact tells_of_listed ends known hfield hlisted
            (ih (hparts name part part' hfield hpart' hlisted)
              (hknown _ (Assoc.mem_of_get?_eq_some hfield)))
        · have hempty := Set.not_nonempty_iff_eq_empty.mp hlisted
          rw [Assoc.keys, hfields] at hmem
          obtain ⟨field, hdeclared⟩ := Schema.exists_field? hmem
          rw [hcleared name field hdeclared hempty] at hpart'
          cases hpart'
          exact tells_of_unlisted ends known hfield hdeclared hempty

end RecordStore
