import RecordStore.Proofs.Model.Masking

/-!
# What a mask conceals

`Masking` says what a mask leaves by the paths that it keeps. Here the tree of the mask is followed along
chains of fields (`Datum.fieldAt?`, `MaskTree.at?`), which shows what a masked instance does not depend
on: only what the tree keeps, and the models of the instances that it takes apart, can be told from it
(`MaskTree.keep_congr`). `MaskTree.Rules` collects what is asked of a masking function, and the codec of
models keeps these rules (`Model.rules_mask`). The models are told indeed (`Model.mask_shows_model`): an
instance that is taken apart is masked to one of its own model, even if nothing in it is kept.
-/

namespace RecordStore

namespace Assoc

variable {κ α : Type} [DecidableEq κ]

/-- What is found under a key stands first under it, or is found behind what stands first. -/
theorem get?_cons_eq_some {key first : κ} {a value : α} {rest : List (κ × α)}
    (h : get? key ((first, a) :: rest) = some value) :
    first = key ∧ a = value ∨ get? key rest = some value := by
  rw [get?] at h
  split at h
  · next hkey => exact .inl ⟨hkey, Option.some.inj h⟩
  · exact .inr h

/-- Under a key, maps of the same keys both have something or both have nothing. -/
theorem get?_of_keys_eq {pairs others : List (κ × α)} (h : keys pairs = keys others) (key : κ) :
    (get? key pairs = none ∧ get? key others = none) ∨
      ∃ a b, get? key pairs = some a ∧ get? key others = some b := by
  by_cases hkey : key ∈ keys pairs
  · obtain ⟨a, ha⟩ := Option.isSome_iff_exists.mp (isSome_get?_iff.mpr hkey)
    obtain ⟨b, hb⟩ := Option.isSome_iff_exists.mp (isSome_get?_iff.mpr (h ▸ hkey))
    exact .inr ⟨a, b, ha, hb⟩
  · exact .inl ⟨get?_eq_none_iff.mpr hkey, get?_eq_none_iff.mpr (h ▸ hkey)⟩

end Assoc

/-! ## Chains of fields -/

namespace Datum

/-- The value at the end of a chain of fields, the values before it being instances. -/
def fieldAt? : Datum → List String → Option Datum
  | d, [] => some d
  | .model _ fields _, name :: rest => (Assoc.get? name fields).bind fun part => part.fieldAt? rest
  | _, _ :: _ => none

/-- The name of the model of an instance. -/
def modelName? : Datum → Option String
  | .model shape _ _ => some shape.name
  | _ => none

/-- The name of the model of the instance at the end of a chain of fields. -/
def modelAt? (d : Datum) (names : List String) : Option String := (d.fieldAt? names).bind modelName?

variable {d : Datum} {shape : Shape} {fields : List (String × Datum)} {given : List String}
  {name : String} {rest : List String}

theorem fieldAt?_nil (d : Datum) : d.fieldAt? [] = some d := by
  cases d <;> rfl

theorem fieldAt?_cons {part : Datum} (h : Assoc.get? name fields = some part) :
    (model shape fields given).fieldAt? (name :: rest) = part.fieldAt? rest := by
  rw [fieldAt?, h, Option.bind_some]

theorem modelAt?_cons {part : Datum} (h : Assoc.get? name fields = some part) :
    (model shape fields given).modelAt? (name :: rest) = part.modelAt? rest :=
  congrArg (·.bind modelName?) (fieldAt?_cons h)

/-- A chain that is not empty begins with a field of an instance. -/
theorem fieldAt?_cons_eq_some {value : Datum} (h : d.fieldAt? (name :: rest) = some value) :
    ∃ shape fields given part, d = .model shape fields given ∧ Assoc.get? name fields = some part ∧
      part.fieldAt? rest = some value := by
  cases d
  case model shape fields given =>
    obtain ⟨part, hpart, hvalue⟩ := Option.bind_eq_some_iff.mp h
    exact ⟨shape, fields, given, part, rfl, hpart, hvalue⟩
  all_goals cases h

/-- Only an instance has the name of a model. -/
theorem eq_model_of_modelName? {n : String} (h : d.modelName? = some n) :
    ∃ shape fields given, d = .model shape fields given ∧ shape.name = n := by
  cases d
  case model shape fields given => exact ⟨shape, fields, given, rfl, Option.some.inj h⟩
  all_goals cases h

/-- What is no instance has no name of a model. -/
theorem isModel_eq_false_iff : d.isModel = false ↔ d.modelName? = none := by
  cases d <;> simp [isModel, modelName?]

end Datum

namespace MaskTree

/-- The part of a tree at the end of a chain of names. -/
def at? : MaskTree → List String → Option MaskTree
  | tree, [] => some tree
  | .leaf, _ :: _ => none
  | .branch parts, name :: rest => (Assoc.get? name parts).bind fun tree => tree.at? rest

/-- A tree keeps a value as it is: a leaf stands where its chain ends or before, or the chain ends in a
branch and the value is no instance, so that there is nothing to take apart. -/
inductive KeepsAt (tree : MaskTree) (names : List String) (value : Datum) : Prop
  | listed {above : List String} (leads : above <+: names) (leaf : tree.at? above = some .leaf)
  | whole {parts : List (String × MaskTree)} (ends : tree.at? names = some (.branch parts))
      (h : value.isModel = false)

/-- All that a tree keeps of a datum stands in another one as well. -/
def KeepsAlike (tree : MaskTree) (d other : Datum) : Prop :=
  ∀ names value, d.fieldAt? names = some value → tree.KeepsAt names value →
    other.fieldAt? names = some value

end MaskTree

/-- All instances in a datum are of known models and have their fields. -/
inductive Catalog.Covers (c : Catalog) : Datum → Prop
  | model {shape : Shape} {schema : Schema} {fields : List (String × Datum)} {given : List String}
      (known : c.find? shape.name = some schema)
      (names : fields.map Prod.fst = schema.fields.map Field.name)
      (parts : ∀ field ∈ fields, c.Covers field.2) : c.Covers (.model shape fields given)
  | other {d : Datum} (h : d.isModel = false) : c.Covers d

/-- What is asked of a function that masks instances by a tree. -/
structure MaskTree.Rules (c : Catalog) (tree : MaskTree) (mask : Datum → Datum) : Prop where
  /-- What the tree keeps stands where it stood. -/
  kept : ∀ d, c.Covers d → tree.KeepsAlike d (mask d)
  /-- A field of which a branch says nothing has its default, or is empty if it is required. -/
  cleared : ∀ d, c.Covers d → ∀ names shape fields given schema name field parts,
    d.fieldAt? names = some (.model shape fields given) → c.find? shape.name = some schema →
    schema.field? name = some field → tree.at? names = some (.branch parts) →
    Assoc.get? name parts = none →
    (mask d).fieldAt? (names ++ [name]) = some (field.initial.getD field.type.empty)
  /-- Nothing else can be told from a masked instance, but the models of the instances that are taken
  apart. -/
  concealed : ∀ d other, c.Covers d → c.Covers other → tree.KeepsAlike d other →
    (∀ names parts, tree.at? names = some (.branch parts) → d.modelAt? names = other.modelAt? names) →
    mask d = mask other
  /-- Masking twice is masking once. -/
  again : ∀ d, c.Covers d → mask (mask d) = mask d

/-! ## Trees -/

namespace MaskTree

variable {parts : List (String × MaskTree)} {name : String} {rest : List String} {value d other : Datum}

/-- What holds of a branch if it holds of all that stands in it holds of every tree. -/
theorem induction {motive : MaskTree → Prop} (leaf : motive .leaf)
    (branch : ∀ parts, (∀ name tree, Assoc.get? name parts = some tree → motive tree) →
      motive (.branch parts)) : ∀ tree, motive tree
  | .leaf => leaf
  | .branch parts => branch parts fun _ tree _ => induction leaf branch tree
termination_by tree => tree
decreasing_by
  have hsmaller := List.sizeOf_lt_of_mem (Assoc.mem_of_get?_eq_some ‹_›)
  simp only [Prod.mk.sizeOf_spec, MaskTree.branch.sizeOf_spec] at hsmaller ⊢
  omega

theorem at?_nil (tree : MaskTree) : tree.at? [] = some tree := by
  cases tree <;> rfl

theorem at?_cons {tree : MaskTree} (h : Assoc.get? name parts = some tree) :
    (branch parts).at? (name :: rest) = tree.at? rest := by
  rw [at?, h, Option.bind_some]

/-- A leaf keeps all that lies below it. -/
theorem keepsAt_leaf (names : List String) (value : Datum) : leaf.KeepsAt names value :=
  .listed List.nil_prefix (at?_nil leaf)

/-- A branch keeps what is no instance. -/
theorem keepsAt_nil : (branch parts).KeepsAt [] value ↔ value.isModel = false := by
  constructor
  · rintro (⟨hleads, hleaf⟩ | ⟨-, h⟩)
    · rw [List.prefix_nil.mp hleads, at?_nil] at hleaf
      cases hleaf
    · exact h
  · exact .whole (at?_nil _)

/-- What a branch keeps below a name is kept by what stands under the name. -/
theorem keepsAt_cons : (branch parts).KeepsAt (name :: rest) value ↔
    ∃ tree, Assoc.get? name parts = some tree ∧ tree.KeepsAt rest value := by
  constructor
  · rintro (⟨hleads, hleaf⟩ | ⟨hends, h⟩)
    · obtain rfl | ⟨above, rfl, hrest⟩ := List.prefix_cons_iff.mp hleads
      · cases hleaf
      · obtain ⟨tree, hget, hleaf⟩ := Option.bind_eq_some_iff.mp hleaf
        exact ⟨tree, hget, .listed hrest hleaf⟩
    · obtain ⟨tree, hget, hends⟩ := Option.bind_eq_some_iff.mp hends
      exact ⟨tree, hget, .whole hends h⟩
  · rintro ⟨tree, hget, ⟨hleads, hleaf⟩ | ⟨hends, h⟩⟩
    · exact .listed (List.cons_prefix_cons.mpr ⟨rfl, hleads⟩) ((at?_cons hget).trans hleaf)
    · exact .whole ((at?_cons hget).trans hends) h

/-- A datum has all that is kept of it. -/
theorem KeepsAlike.refl (tree : MaskTree) (d : Datum) : tree.KeepsAlike d d :=
  fun _ _ hvalue _ => hvalue

/-- A leaf keeps everything, so that nothing else is alike. -/
theorem KeepsAlike.eq_of_leaf (h : leaf.KeepsAlike d other) : other = d :=
  Option.some.inj ((Datum.fieldAt?_nil other).symm.trans
    (h [] d (Datum.fieldAt?_nil d) (keepsAt_leaf [] d)))

/-- What is no instance is kept whole. -/
theorem KeepsAlike.eq_of_other (h : (branch parts).KeepsAlike d other) (hd : d.isModel = false) :
    other = d :=
  Option.some.inj ((Datum.fieldAt?_nil other).symm.trans
    (h [] d (Datum.fieldAt?_nil d) (keepsAt_nil.mpr hd)))

/-- What is kept alike of two instances is kept alike of their fields. -/
theorem KeepsAlike.part {shape shape' : Shape} {fields fields' : List (String × Datum)}
    {given given' : List String} {part part' : Datum} {tree : MaskTree}
    (h : (branch parts).KeepsAlike (.model shape fields given) (.model shape' fields' given'))
    (hget : Assoc.get? name parts = some tree) (hpart : Assoc.get? name fields = some part)
    (hpart' : Assoc.get? name fields' = some part') : tree.KeepsAlike part part' := by
  intro names value hvalue hkept
  have hbelow := h (name :: names) value ((Datum.fieldAt?_cons hpart).trans hvalue)
    (keepsAt_cons.mpr ⟨tree, hget, hkept⟩)
  rwa [Datum.fieldAt?_cons hpart'] at hbelow

/-- Two instances are alike to a branch if their fields are alike to what stands in it. -/
theorem keepsAlike_model {shape shape' : Shape} {fields fields' : List (String × Datum)}
    {given given' : List String}
    (h : ∀ name tree part, Assoc.get? name parts = some tree → Assoc.get? name fields = some part →
      ∃ part', Assoc.get? name fields' = some part' ∧ tree.KeepsAlike part part') :
    (branch parts).KeepsAlike (.model shape fields given) (.model shape' fields' given') := by
  intro names value hvalue hkept
  cases names with
  | nil =>
    -- A branch does not keep an instance itself.
    obtain rfl := Option.some.inj hvalue
    cases keepsAt_nil.mp hkept
  | cons name rest =>
    obtain ⟨tree, hget, hkept⟩ := keepsAt_cons.mp hkept
    obtain ⟨part, hpart, hvalue⟩ := Option.bind_eq_some_iff.mp hvalue
    obtain ⟨part', hpart', halike⟩ := h name tree part hget hpart
    rw [Datum.fieldAt?_cons hpart']
    exact halike rest value hvalue hkept

/-- What a branch of one name keeps of two instances is alike if they have the same under the name. -/
theorem keepsAlike_singleton {shape shape' : Shape} {fields fields' : List (String × Datum)}
    {given given' : List String} {tree : MaskTree}
    (h : Assoc.get? name fields' = Assoc.get? name fields) :
    (branch [(name, tree)]).KeepsAlike (.model shape fields given) (.model shape' fields' given') := by
  refine keepsAlike_model fun first tree' part hget hpart => ?_
  obtain ⟨rfl, -⟩ | hget := Assoc.get?_cons_eq_some hget
  · exact ⟨part, h.trans hpart, .refl tree' part⟩
  · cases hget

end MaskTree

/-! ## Masked instances -/

/-- A field is cleared to its default, or to the empty value of its type. -/
theorem Field.cleared_snd (field : Field) :
    field.cleared.2 = field.initial.getD field.type.empty := by
  obtain ⟨name, type, initial⟩ := field
  cases initial <;> rfl

/-- An instance depends on no more of its given fields than what is found under a name. -/
theorem Schema.fill_congr {schema : Schema} {given given' : List (String × Datum)}
    (h : ∀ name, Assoc.get? name given = Assoc.get? name given') :
    schema.fill given = schema.fill given' := by
  simp only [fill, givenNames, Assoc.contains, h]

namespace Catalog

variable {c : Catalog} {shape : Shape} {fields : List (String × Datum)} {given : List String}

/-- An instance that is covered is of a known model and has its fields. -/
theorem Covers.of_model (h : c.Covers (.model shape fields given)) :
    ∃ schema, c.find? shape.name = some schema ∧
      fields.map Prod.fst = schema.fields.map Field.name := by
  cases h with
  | model known names parts => exact ⟨_, known, names⟩
  | other h => cases h

/-- A part of an instance that is covered is covered. -/
theorem Covers.part {name : String} {part : Datum} (h : c.Covers (.model shape fields given))
    (hpart : Assoc.get? name fields = some part) : c.Covers part := by
  cases h with
  | model known names parts => exact parts _ (Assoc.mem_of_get?_eq_some hpart)
  | other h => cases h

end Catalog

namespace MaskTree

variable {c : Catalog} {tree : MaskTree} {parts : List (String × MaskTree)} {d other : Datum}
  {shape : Shape} {schema : Schema} {fields : List (String × Datum)} {given rest : List String}
  {name : String}

/-- What is no instance is kept as it is. -/
theorem keep_other (h : d.isModel = false) : keep c d (.branch parts) = d := by
  cases d
  case model => cases h
  all_goals rfl

/-- A field that a branch lists is masked by what stands under it. -/
theorem get?_fill_keepParts (names : fields.map Prod.fst = schema.fields.map Field.name)
    (hget : Assoc.get? name parts = some tree) :
    Assoc.get? name (schema.fields.map fun f =>
        (f.name, (Assoc.get? f.name (keepParts c fields parts)).getD f.cleared.2)) =
      (Assoc.get? name fields).map fun part => keep c part tree := by
  have hkeys : Assoc.keys fields = Assoc.keys (schema.fields.map fun f =>
      (f.name, (Assoc.get? f.name (keepParts c fields parts)).getD f.cleared.2)) := by
    rw [Assoc.keys, Assoc.keys, names, List.map_map]
    rfl
  obtain ⟨hpart, hfilled⟩ | ⟨part, left, hpart, hfilled⟩ := Assoc.get?_of_keys_eq hkeys name
  · rw [hfilled, hpart, Option.map_none]
  · rw [Schema.get?_fields] at hfilled ⊢
    obtain ⟨field, hfield, -⟩ := Option.map_eq_some_iff.mp hfilled
    rw [hfield, hpart, Option.map_some, Option.map_some, Schema.name_of_field? hfield, get?_keepParts,
      hget, Option.bind_some, hpart, Option.map_some, Option.getD_some]

/-- The chains of a masked instance that begin with a listed field are those of the masked field. -/
theorem fieldAt?_keep_cons {part : Datum} (hd : c.Covers (.model shape fields given))
    (hget : Assoc.get? name parts = some tree) (hpart : Assoc.get? name fields = some part) :
    (keep c (.model shape fields given) (.branch parts)).fieldAt? (name :: rest) =
      (keep c part tree).fieldAt? rest := by
  obtain ⟨schema, known, hnames⟩ := hd.of_model
  have hmasked := get?_fill_keepParts (c := c) hnames hget
  rw [hpart, Option.map_some] at hmasked
  rw [keep_model known, Schema.fill, Datum.fieldAt?_cons hmasked]

/-- What a tree keeps stands in the masked datum. -/
theorem keepsAlike_keep (hd : c.Covers d) : tree.KeepsAlike d (keep c d tree) := by
  intro names value hvalue hkept
  -- The induction is on the chain: each name leads from an instance to a field and from a branch to
  -- what stands in it.
  induction names generalizing d tree with
  | nil =>
    rw [Datum.fieldAt?_nil] at hvalue
    obtain rfl := Option.some.inj hvalue
    cases tree with
    | leaf => exact Datum.fieldAt?_nil _
    | branch parts => rw [keep_other (keepsAt_nil.mp hkept), Datum.fieldAt?_nil]
  | cons name rest ih =>
    cases tree with
    | leaf => exact hvalue
    | branch parts =>
      obtain ⟨shape, fields, given, part, rfl, hpart, hvalue⟩ := Datum.fieldAt?_cons_eq_some hvalue
      obtain ⟨tree, hget, hkept⟩ := keepsAt_cons.mp hkept
      rw [fieldAt?_keep_cons hd hget hpart]
      exact ih (hd.part hpart) hvalue hkept

/-- A field of which a branch says nothing is cleared. -/
theorem fieldAt?_keep_cleared {field : Field} (hd : c.Covers d) {names : List String}
    (hat : d.fieldAt? names = some (.model shape fields given)) (known : c.find? shape.name = some schema)
    (declared : schema.field? name = some field) (ends : tree.at? names = some (.branch parts))
    (missing : Assoc.get? name parts = none) :
    (keep c d tree).fieldAt? (names ++ [name]) = some (field.initial.getD field.type.empty) := by
  -- On the way down, each name is one that the tree lists; the last one is not.
  induction names generalizing d tree with
  | nil =>
    rw [Datum.fieldAt?_nil] at hat
    obtain rfl := Option.some.inj hat
    rw [at?_nil] at ends
    obtain rfl := Option.some.inj ends
    have hcleared := Schema.get?_fields schema
      (fun f => (Assoc.get? f.name (keepParts c fields parts)).getD f.cleared.2) name
    rw [declared, Option.map_some, Schema.name_of_field? declared, get?_keepParts, missing,
      Option.bind_none, Option.getD_none, Field.cleared_snd] at hcleared
    rw [keep_model known, Schema.fill, List.nil_append, Datum.fieldAt?_cons hcleared,
      Datum.fieldAt?_nil]
  | cons first rest ih =>
    obtain ⟨shape', fields', given', part, rfl, hpart, hat⟩ := Datum.fieldAt?_cons_eq_some hat
    cases tree with
    | leaf => cases ends
    | branch parts' =>
      obtain ⟨tree, hget, ends⟩ := Option.bind_eq_some_iff.mp ends
      rw [List.cons_append, fieldAt?_keep_cons hd hget hpart]
      exact ih (hd.part hpart) hat ends

/-- Data of which a tree keeps the same are masked to the same, if what is taken apart is of one model. -/
theorem keep_congr (hd : c.Covers d) (hother : c.Covers other) (alike : tree.KeepsAlike d other)
    (models : ∀ names parts, tree.at? names = some (.branch parts) →
      d.modelAt? names = other.modelAt? names) : keep c d tree = keep c other tree := by
  induction tree using MaskTree.induction generalizing d other with
  | leaf => rw [alike.eq_of_leaf]
  | branch parts ih =>
    -- The chain without names ends in the branch itself, so that its instances are of one model.
    have hroot : d.modelName? = other.modelName? := by
      have hmodels := models [] parts (at?_nil _)
      rwa [Datum.modelAt?, Datum.modelAt?, Datum.fieldAt?_nil, Datum.fieldAt?_nil] at hmodels
    cases hd' : d.modelName? with
    | none => rw [alike.eq_of_other (Datum.isModel_eq_false_iff.mpr hd')]
    | some n =>
      obtain ⟨shape, fields, given, rfl, rfl⟩ := Datum.eq_model_of_modelName? hd'
      obtain ⟨shape', fields', given', rfl, hname⟩ := Datum.eq_model_of_modelName? (hroot ▸ hd')
      obtain ⟨schema, known, hnames⟩ := hd.of_model
      obtain ⟨schema', known', hnames'⟩ := hother.of_model
      obtain rfl := Option.some.inj (known.symm.trans (hname ▸ known'))
      rw [keep_model known, keep_model known']
      refine Schema.fill_congr fun name => ?_
      rw [get?_keepParts, get?_keepParts]
      cases hget : Assoc.get? name parts with
      | none => rfl
      | some tree =>
        rw [Option.bind_some, Option.bind_some]
        -- Both instances are of one model, and have the field or have it not.
        obtain ⟨hpart, hpart'⟩ | ⟨part, part', hpart, hpart'⟩ :=
          Assoc.get?_of_keys_eq (hnames.trans hnames'.symm) name
        · rw [hpart, hpart']
        · rw [hpart, hpart']
          refine congrArg some (ih name tree hget (hd.part hpart) (hother.part hpart')
            (alike.part hget hpart hpart') fun names below hat => ?_)
          rw [← Datum.modelAt?_cons hpart, ← Datum.modelAt?_cons hpart']
          exact models (name :: names) below ((at?_cons hget).trans hat)

/-- Keeping twice is keeping once. -/
theorem keep_keep (hd : c.Covers d) : keep c (keep c d tree) tree = keep c d tree := by
  induction tree using MaskTree.induction generalizing d with
  | leaf => rfl
  | branch parts ih =>
    cases hd with
    | other h => rw [keep_other h, keep_other h]
    | @model shape schema fields given known hnames hparts =>
      -- What is filled is of the same model again.
      have hname : schema.shape.name = shape.name := by
        have hfound := List.find?_some known
        exact of_decide_eq_true hfound
      rw [keep_model known]
      refine (keep_model (hname ▸ known)).trans (Schema.fill_congr fun name => ?_)
      rw [get?_keepParts, get?_keepParts]
      cases hget : Assoc.get? name parts with
      | none => rfl
      | some tree =>
        rw [Option.bind_some, Option.bind_some, get?_fill_keepParts hnames hget, Option.map_map]
        refine Option.map_congr fun part hpart => ?_
        exact ih name tree hget (hparts _ (Assoc.mem_of_get?_eq_some hpart))

end MaskTree

/-! ## The codec of models -/

namespace Model

/-- The tree by which instances are masked: the one of the paths of a mask, and all of the identifier
field if no path leads there. -/
def maskTree (idField : String) (m : FieldMask) : MaskTree :=
  let parts := MaskTree.ofPaths m.paths
  .branch (if Assoc.contains idField parts then parts else parts ++ [(idField, .leaf)])

/-- The codec masks instances by the rules. What they say of cleared fields is about defaults that are
fixed values, as those of `Field.initial` are. -/
theorem rules_mask (catalog : Catalog) (schema : Schema) (registry : Registry) (layout : Layout)
    (idField : String) {m : FieldMask} (hm : m.isEmpty = false) :
    (maskTree idField m).Rules catalog ((codec catalog schema registry layout idField).mask m) := by
  -- A mask that is not empty keeps by its tree.
  have hmask : (codec catalog schema registry layout idField).mask m =
      fun d => MaskTree.keep catalog d (maskTree idField m) := by
    funext d
    rw [Codec.mask, hm]
    rfl
  rw [hmask]
  constructor
  · intro d hd
    exact MaskTree.keepsAlike_keep hd
  · intro d hd names shape fields given schema name field parts hat known declared ends missing
    exact MaskTree.fieldAt?_keep_cleared hd hat known declared ends missing
  · intro d other hd hother alike models
    exact MaskTree.keep_congr hd hother alike models
  · intro d hd
    exact MaskTree.keep_keep hd

/-! ### A zoo -/

/-- Points have two numbers. -/
def pointSchema : Schema := ⟨"Point", [.mk "y" .integer none, .mk "x" .integer none]⟩

/-- Details have two fields with defaults. -/
def detailsSchema : Schema := ⟨"Details", [.mk "note" .text (some (.text "")),
  .mk "tags" (.list .text) (some (.list []))]⟩

/-- A zoo has a field that may hold anything, and a number with a default. -/
def zooSchema : Schema := ⟨"Zoo", [.mk "id" .integer none, .mk "anything" .any none,
  .mk "count" .integer (some (.integer 7))]⟩

/-- The three models. -/
def zooCatalog : Catalog := [pointSchema, detailsSchema, zooSchema]

/-- The codec of zoos; a mask always keeps their identifier. -/
def zooCodec : Codec Datum := codec zooCatalog zooSchema .default ⟨"Zoo", [], "id", none, by decide⟩ "id"

/-- A point of two numbers. -/
def point (y x : Int) : Datum :=
  .model pointSchema.shape [("y", .integer y), ("x", .integer x)] ["y", "x"]

/-- Details with a note. -/
def details : Datum :=
  .model detailsSchema.shape [("note", .text "n"), ("tags", .list [])] ["note"]

/-- A zoo, which can have a datum of any type in it. -/
def zoo (anything : Datum) (count : Int) : Datum :=
  .model zooSchema.shape [("id", .integer 1), ("anything", anything), ("count", .integer count)]
    ["id", "anything", "count"]

theorem covers_point (y x : Int) : zooCatalog.Covers (point y x) :=
  .model rfl rfl (List.forall_mem_cons.mpr ⟨.other rfl, List.forall_mem_singleton.mpr (.other rfl)⟩)

theorem covers_details : zooCatalog.Covers details :=
  .model rfl rfl (List.forall_mem_cons.mpr ⟨.other rfl, List.forall_mem_singleton.mpr (.other rfl)⟩)

theorem covers_zoo {anything : Datum} (h : zooCatalog.Covers anything) (count : Int) :
    zooCatalog.Covers (zoo anything count) :=
  .model rfl rfl (List.forall_mem_cons.mpr ⟨.other rfl,
    List.forall_mem_cons.mpr ⟨h, List.forall_mem_singleton.mpr (.other rfl)⟩⟩)

/-- The tree of a field of what a zoo has in it. -/
def zooTree (name : String) : MaskTree :=
  .branch [("anything", .branch [(name, .leaf)]), ("id", .leaf)]

theorem maskTree_zoo {path name : String} (h : MaskTree.names path = ["anything", name]) :
    maskTree "id" ⟨[path]⟩ = zooTree name := by
  rw [maskTree, MaskTree.ofPaths, List.map_singleton, h, List.mergeSort_singleton]
  rfl

/-- The tree takes apart a zoo and what it has in it. -/
theorem forall_branches_zooTree {name : String} {P : List String → Prop} (hroot : P [])
    (hanything : P ["anything"]) (names : List String) (parts : List (String × MaskTree))
    (h : (zooTree name).at? names = some (.branch parts)) : P names := by
  rcases names with - | ⟨first, names⟩
  · exact hroot
  obtain ⟨tree, hget, h⟩ := Option.bind_eq_some_iff.mp h
  obtain ⟨rfl, rfl⟩ | hget := Assoc.get?_cons_eq_some hget
  · rcases names with - | ⟨second, names⟩
    · exact hanything
    obtain ⟨tree, hget, h⟩ := Option.bind_eq_some_iff.mp h
    obtain ⟨-, rfl⟩ | hget := Assoc.get?_cons_eq_some hget
    · cases names <;> cases h
    · cases hget
  · obtain ⟨-, rfl⟩ | hget := Assoc.get?_cons_eq_some hget
    · cases names <;> cases h
    · cases hget

/-- Zoos are alike if what they have in them is. -/
theorem keepsAlike_zoo {name : String} {anything other : Datum}
    (h : (MaskTree.branch [(name, .leaf)]).KeepsAlike anything other) (count count' : Int) :
    (zooTree name).KeepsAlike (zoo anything count) (zoo other count') := by
  refine MaskTree.keepsAlike_model fun first tree part hget hpart => ?_
  obtain ⟨rfl, rfl⟩ | hget := Assoc.get?_cons_eq_some hget
  · obtain rfl := Option.some.inj hpart
    exact ⟨other, rfl, h⟩
  · obtain ⟨rfl, -⟩ | hget := Assoc.get?_cons_eq_some hget
    · exact ⟨part, hpart, .refl tree part⟩
    · cases hget

/-- Of a point in a zoo, a mask keeps the number that it lists. -/
theorem rules_mask_zoo :
    let mask := zooCodec.mask ⟨["anything.x"]⟩
    (⟨["anything.x"]⟩ : FieldMask).isEmpty = false ∧
      (mask (zoo (point 2 5) 3)).fieldAt? ["anything", "x"] = some (.integer 5) ∧
      (mask (zoo (point 2 5) 3)).fieldAt? ["anything", "y"] = some (.integer 0) ∧
      (mask (zoo (point 2 5) 3)).fieldAt? ["count"] = some (.integer 7) ∧
      mask (zoo (point 2 5) 3) = mask (zoo (point 4 5) 6) ∧
      mask (mask (zoo (point 2 5) 3)) = mask (zoo (point 2 5) 3) := by
  intro mask
  have hnames : MaskTree.names "anything.x" = ["anything", "x"] := by
    decide
  have hm : (⟨["anything.x"]⟩ : FieldMask).isEmpty = false := rfl
  have hrules : (zooTree "x").Rules zooCatalog mask :=
    maskTree_zoo hnames ▸ rules_mask zooCatalog zooSchema .default _ "id" hm
  -- Both zoos are of known models.
  have hcovers (y count : Int) := covers_zoo (covers_point y 5) count
  refine ⟨hm, ?_, ?_, ?_, ?_, hrules.again _ (hcovers 2 3)⟩
  · exact hrules.kept _ (hcovers 2 3) _ _ rfl (.listed List.prefix_rfl rfl)
  · exact hrules.cleared _ (hcovers 2 3) ["anything"] _ _ _ _ "y" _ _ rfl rfl rfl rfl rfl
  · exact hrules.cleared _ (hcovers 2 3) [] _ _ _ _ "count" _ _ rfl rfl rfl rfl rfl
  · -- The points differ in the number that the mask does not list.
    have halike : (MaskTree.branch [("x", .leaf)]).KeepsAlike (point 2 5) (point 4 5) :=
      MaskTree.keepsAlike_singleton rfl
    exact hrules.concealed _ _ (hcovers 2 3) (hcovers 4 6) (keepsAlike_zoo halike 3 6)
      (forall_branches_zooTree rfl rfl)

/-- A mask that keeps nothing of a point or of details shows which of them is in a zoo. -/
theorem mask_shows_model :
    let mask := zooCodec.mask ⟨["anything.z"]⟩
    let tree := maskTree "id" ⟨["anything.z"]⟩
    let d := zoo (point 2 5) 3
    let other := zoo details 3
    zooCatalog.Covers d ∧ zooCatalog.Covers other ∧ tree.KeepsAlike d other ∧ tree.KeepsAlike other d ∧
      (∀ names parts, tree.at? names = some (.branch parts) →
        (d.fieldAt? names).map Datum.isModel = (other.fieldAt? names).map Datum.isModel) ∧
      mask d ≠ mask other := by
  intro mask tree d other
  have hnames : MaskTree.names "anything.z" = ["anything", "z"] := by
    decide
  have htree : tree = zooTree "z" := maskTree_zoo hnames
  rw [htree]
  -- Neither a point nor details have the field that is listed.
  have hpoint : (MaskTree.branch [("z", .leaf)]).KeepsAlike (point 2 5) details :=
    MaskTree.keepsAlike_singleton rfl
  have hdetails : (MaskTree.branch [("z", .leaf)]).KeepsAlike details (point 2 5) :=
    MaskTree.keepsAlike_singleton rfl
  refine ⟨covers_zoo (covers_point 2 5) 3, covers_zoo covers_details 3, keepsAlike_zoo hpoint 3 3,
    keepsAlike_zoo hdetails 3 3, forall_branches_zooTree rfl rfl, ?_⟩
  have hmask (d : Datum) : mask d = MaskTree.keep zooCatalog d (zooTree "z") := by
    rw [← htree]
    rfl
  rw [hmask, hmask]
  intro h
  have hmodels : some "Point" = some "Details" :=
    congrArg (fun masked => masked.modelAt? ["anything"]) h
  revert hmodels
  decide

end Model

end RecordStore
