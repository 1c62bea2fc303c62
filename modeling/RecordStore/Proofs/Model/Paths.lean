import Mathlib.Data.List.Perm.Basic
import RecordStore.Proofs.Model.Concealment

/-!
# The tree of some paths

Which paths a tree represents (`MaskTree.Represents`) says all about it: trees of the same paths are the
same nested maps (`Represents.alike`), a chain of names comes to a leaf exactly if one of the paths begins
it (`Represents.reaches_iff`), and every node is on the way to a leaf, whose chain is one of the paths
(`Represents.exists_leaf`). All of this holds of the tree that listed paths are turned into, in whatever
order and however often they are listed (`MaskTree.ofPaths_exact`).
-/

namespace RecordStore.MaskTree

variable {tree other node : MaskTree} {parts : List (String × MaskTree)} {paths : Set (List String)}
  {name : String} {chain more rest : List String}

/-! ## Nested maps -/

/-- No name stands twice in a branch. -/
inductive Distinct : MaskTree → Prop
  | leaf : Distinct .leaf
  | branch {parts : List (String × MaskTree)} (names : (Assoc.keys parts).Nodup)
      (below : ∀ name tree, Assoc.get? name parts = some tree → Distinct tree) :
      Distinct (.branch parts)

/-- Two trees are the same nested maps: branches have the same names, in any order, and under each of them
the same. -/
inductive Alike : MaskTree → MaskTree → Prop
  | leaf : Alike .leaf .leaf
  | branch {parts others : List (String × MaskTree)} (names : (Assoc.keys parts).Perm (Assoc.keys others))
      (below : ∀ name tree other, Assoc.get? name parts = some tree →
        Assoc.get? name others = some other → Alike tree other) :
      Alike (.branch parts) (.branch others)

theorem distinct_nil : Distinct (.branch []) :=
  .branch List.nodup_nil fun _ _ hget => nomatch hget

/-- What stands in a tree of distinct names is one itself. -/
theorem Distinct.part (h : Distinct (.branch parts)) (hget : Assoc.get? name parts = some tree) :
    Distinct tree := by
  cases h with
  | branch _ hparts => exact hparts name tree hget

/-- A part that is put replaces the one of its name, so no name stands twice. -/
theorem Distinct.put (h : Distinct (.branch parts)) (name : String) (htree : Distinct tree) :
    Distinct (.branch (Assoc.put name tree parts)) := by
  cases h with
  | branch hnames hparts =>
    refine .branch (Assoc.nodup_keys_put hnames name tree) fun first below hget => ?_
    obtain rfl | hne := eq_or_ne first name
    · rw [Assoc.get?_put_self] at hget
      exact Option.some.inj hget ▸ htree
    · rw [Assoc.get?_put_of_ne hne] at hget
      exact hparts first below hget

/-- Adding a path keeps the names distinct. -/
theorem Distinct.insert (h : Distinct (.branch parts)) (names : List String) :
    Distinct (.branch (insert names parts)) := by
  fun_induction MaskTree.insert names parts with
  | case1 => exact h
  | case2 parts name => exact h.put name .leaf
  | case3 => exact h
  | case4 parts name rest hrest below hbranch ih => exact h.put name (ih (h.part hbranch))
  | case5 parts name rest hrest hnone ih => exact h.put name (ih distinct_nil)

/-- Paths that are added make no name stand twice. -/
theorem Distinct.insertAll (h : Distinct (.branch parts)) (added : List (List String)) :
    Distinct (.branch (added.foldl (fun parts names => MaskTree.insert names parts) parts)) := by
  induction added generalizing parts with
  | nil => exact h
  | cons names added ih => exact ih (h.insert names)

/-- No name stands twice in the tree of some paths. -/
theorem distinct_ofPaths (listed : List String) : Distinct (.branch (ofPaths listed)) :=
  distinct_nil.insertAll _

/-! ## Trees and their paths -/

/-- A branch has the names that its paths begin with. -/
theorem Represents.mem_keys (h : Represents (.branch parts) paths) :
    name ∈ Assoc.keys parts ↔ (after name paths).Nonempty := by
  cases h with
  | branch _ hmissing hnonempty _ =>
    rw [← Assoc.isSome_get?_iff, Option.isSome_iff_exists]
    constructor
    · rintro ⟨tree, hget⟩
      exact hnonempty name tree hget
    · intro hafter
      by_contra hnone
      rw [← Option.isSome_iff_exists, Option.not_isSome_iff_eq_none] at hnone
      exact hafter.ne_empty (hmissing name hnone)

/-- Trees of the same paths are the same. -/
theorem Represents.alike (h : Represents tree paths) (hother : Represents other paths)
    (hdistinct : tree.Distinct) (hdistinct' : other.Distinct) : tree.Alike other := by
  -- Whether a path ends tells a leaf from a branch, so that both trees have the same constructor.
  induction h generalizing other with
  | leaf ends =>
    cases hother with
    | leaf => exact .leaf
    | branch hends => exact absurd ends hends
  | @branch paths parts ends hmissing hnonempty hrepresents ih =>
    have hself : Represents (.branch parts) paths := .branch ends hmissing hnonempty hrepresents
    cases hother with
    | leaf hends => exact absurd hends ends
    | @branch _ others hends hmissing' hnonempty' hrepresents' =>
      have hother : Represents (.branch others) paths := .branch hends hmissing' hnonempty' hrepresents'
      refine .branch ?_ fun name tree other hget hget' => ?_
      · rcases hdistinct with _ | ⟨hnames, -⟩
        rcases hdistinct' with _ | ⟨hnames', -⟩
        apply (List.perm_ext_iff_of_nodup hnames hnames').mpr
        intro name
        rw [hself.mem_keys, hother.mem_keys]
      · exact ih name tree hget (hrepresents' name other hget') (hdistinct.part hget)
          (hdistinct'.part hget')

/-! ## Chains of names -/

/-- Followed along a chain of names, a tree comes to a leaf at the end of the chain or before. -/
def Reaches (tree : MaskTree) (chain : List String) : Prop :=
  ∃ above, above <+: chain ∧ tree.at? above = some .leaf

/-- A leaf is reached by every chain. -/
theorem reaches_leaf (chain : List String) : leaf.Reaches chain :=
  ⟨[], List.nil_prefix, at?_nil leaf⟩

/-- No leaf is reached in a branch without a name. -/
theorem not_reaches_nil : ¬ (branch parts).Reaches [] := by
  rintro ⟨above, habove, hleaf⟩
  rw [List.prefix_nil.mp habove, at?_nil] at hleaf
  cases hleaf

/-- A chain reaches a leaf in the part of its first name. -/
theorem reaches_cons : (branch parts).Reaches (name :: rest) ↔
    ∃ tree, Assoc.get? name parts = some tree ∧ tree.Reaches rest := by
  constructor
  · rintro ⟨above, habove, hleaf⟩
    obtain rfl | ⟨above, rfl, hrest⟩ := List.prefix_cons_iff.mp habove
    · cases hleaf
    · obtain ⟨tree, hget, hleaf⟩ := Option.bind_eq_some_iff.mp hleaf
      exact ⟨tree, hget, above, hrest, hleaf⟩
  · rintro ⟨tree, hget, above, hrest, hleaf⟩
    exact ⟨name :: above, List.cons_prefix_cons.mpr ⟨rfl, hrest⟩, (at?_cons hget).trans hleaf⟩

/-- A chain is followed name by name. -/
theorem at?_append (tree : MaskTree) (chain more : List String) :
    tree.at? (chain ++ more) = (tree.at? chain).bind fun node => node.at? more := by
  induction chain generalizing tree with
  | nil => rw [List.nil_append, at?_nil, Option.bind_some]
  | cons name rest ih =>
    cases tree with
    | leaf => rfl
    | branch parts =>
      rw [List.cons_append, at?, at?, Option.bind_assoc]
      exact Option.bind_congr fun tree _ => ih tree

/-- A chain comes to a leaf if a path begins it, and only then. -/
theorem Represents.reaches_iff (h : Represents tree paths) :
    tree.Reaches chain ↔ ∃ names ∈ paths, names <+: chain := by
  induction h generalizing chain with
  | leaf ends => exact iff_of_true (reaches_leaf chain) ⟨[], ends, List.nil_prefix⟩
  | @branch paths parts ends hmissing hnonempty hrepresents ih =>
    cases chain with
    | nil =>
      refine iff_of_false not_reaches_nil ?_
      rintro ⟨names, hnames, hbegins⟩
      exact ends (List.prefix_nil.mp hbegins ▸ hnames)
    | cons name rest =>
      rw [reaches_cons]
      constructor
      · rintro ⟨tree, hget, hreaches⟩
        obtain ⟨names, hnames, hbegins⟩ := (ih name tree hget).mp hreaches
        exact ⟨name :: names, hnames, List.cons_prefix_cons.mpr ⟨rfl, hbegins⟩⟩
      · rintro ⟨names, hnames, hbegins⟩
        -- ⟨names, rfl, hrest⟩|The empty path would end in this branch, which is no leaf.
        obtain rfl | ⟨names, rfl, hrest⟩ := List.prefix_cons_iff.mp hbegins
        · exact absurd hnames ends
        · cases hget : Assoc.get? name parts with
          | none => exact absurd hnames (Set.eq_empty_iff_forall_notMem.mp (hmissing name hget) names)
          | some tree => exact ⟨tree, rfl, (ih name tree hget).mpr ⟨names, hnames, hrest⟩⟩

/-- A node represents what the paths go on with at the end of its chain. -/
theorem Represents.at? (h : Represents tree paths) (hat : tree.at? chain = some node) :
    Represents node {more | chain ++ more ∈ paths} := by
  induction h generalizing chain with
  | leaf ends =>
    cases chain with
    | nil =>
      obtain rfl := Option.some.inj ((at?_nil .leaf).symm.trans hat)
      exact .leaf ends
    | cons name rest => cases hat
  | @branch paths parts ends hmissing hnonempty hrepresents ih =>
    cases chain with
    | nil =>
      obtain rfl := Option.some.inj ((at?_nil _).symm.trans hat)
      exact .branch ends hmissing hnonempty hrepresents
    | cons name rest =>
      obtain ⟨tree, hget, hat⟩ := Option.bind_eq_some_iff.mp hat
      exact ih name tree hget hat

/-- There is a leaf below every node at which a path goes on, and its chain is one of the paths. -/
theorem Represents.exists_leaf (h : Represents tree paths) (hpaths : paths.Nonempty) :
    ∃ more ∈ paths, tree.at? more = some .leaf := by
  induction h with
  | leaf ends => exact ⟨[], ends, at?_nil .leaf⟩
  | @branch paths parts ends hmissing hnonempty hrepresents ih =>
    obtain ⟨_ | ⟨name, rest⟩, hnames⟩ := hpaths
    · exact absurd hnames ends
    · cases hget : Assoc.get? name parts with
      | none => exact absurd hnames (Set.eq_empty_iff_forall_notMem.mp (hmissing name hget) rest)
      | some tree =>
        obtain ⟨more, hmore, hleaf⟩ := ih name tree hget ⟨rest, hnames⟩
        exact ⟨name :: more, hmore, (at?_cons hget).trans hleaf⟩

/-- The chain of a leaf is one of the paths. -/
theorem Represents.mem_of_leaf (h : Represents tree paths) (hleaf : tree.at? chain = some .leaf) :
    chain ∈ paths := by
  cases h.at? hleaf with
  | leaf ends =>
    rw [Set.mem_ofPred_eq, List.append_nil] at ends
    exact ends

/-- A path goes on at every node but the root of the tree of no paths. -/
theorem Represents.nonempty_at? (h : Represents tree paths) (hat : tree.at? chain = some node)
    (hne : chain ≠ [] ∨ paths.Nonempty) : {more | chain ++ more ∈ paths}.Nonempty := by
  -- Only at the root is it asked for; below it, a part stands for a path that goes on.
  induction h generalizing chain with
  | leaf ends =>
    cases chain with
    | nil => exact ⟨[], ends⟩
    | cons name rest => cases hat
  | @branch paths parts ends hmissing hnonempty hrepresents ih =>
    cases chain with
    | nil => exact hne.resolve_left (not_not_intro rfl)
    | cons name rest =>
      obtain ⟨tree, hget, hat⟩ := Option.bind_eq_some_iff.mp hat
      exact ih name tree hget hat (.inr (hnonempty name tree hget))

/-! ## Listed paths -/

/-- The tree of some listed paths is the same, as nested maps, however the paths are ordered and
however often they are listed. A chain of names, such as the names of a dotted path, comes to a leaf
at its end or before exactly if the names of a listed path begin it. Every leaf stands at the end of
a listed path; and every branch, except the root of the tree of no paths, has a part, and goes on to
a leaf at the end of a listed path. -/
theorem ofPaths_exact (listed : List String) :
    let tree := branch (ofPaths listed)
    (∀ others : List String, (∀ path, path ∈ listed ↔ path ∈ others) →
      tree.Alike (branch (ofPaths others))) ∧
    (∀ chain, (∃ above, above <+: chain ∧ tree.at? above = some .leaf) ↔
      ∃ path ∈ listed, MaskTree.names path <+: chain) ∧
    (∀ chain, tree.at? chain = some .leaf → ∃ path ∈ listed, MaskTree.names path = chain) ∧
    ∀ chain parts, tree.at? chain = some (.branch parts) →
      (chain = [] ∧ listed = []) ∨
      parts ≠ [] ∧ ∃ more, tree.at? (chain ++ more) = some .leaf ∧
        ∃ path ∈ listed, MaskTree.names path = chain ++ more := by
  intro tree
  have hrepresents : tree.Represents _ := represents_ofPaths listed
  refine ⟨fun others hothers => ?_, fun chain => ?_, fun chain hleaf => ?_, fun chain parts hat => ?_⟩
  · have hsame := represents_ofPaths others
    simp only [← hothers] at hsame
    exact hrepresents.alike hsame (distinct_ofPaths listed) (distinct_ofPaths others)
  · refine hrepresents.reaches_iff.trans ⟨?_, ?_⟩
    · rintro ⟨_, ⟨path, hpath, rfl⟩, hbegins⟩
      exact ⟨path, hpath, hbegins⟩
    · rintro ⟨path, hpath, hbegins⟩
      exact ⟨_, ⟨path, hpath, rfl⟩, hbegins⟩
  · exact hrepresents.mem_of_leaf hleaf
  · refine or_iff_not_imp_left.mpr fun hroot => ?_
    have hne : chain ≠ [] ∨ {names | ∃ path ∈ listed, MaskTree.names path = names}.Nonempty := by
      refine (not_and_or.mp hroot).imp_right fun hlisted => ?_
      obtain ⟨path, hpath⟩ := List.exists_mem_of_ne_nil listed hlisted
      exact ⟨_, path, hpath, rfl⟩
    obtain ⟨more, hmore, hleaf⟩ := (hrepresents.at? hat).exists_leaf (hrepresents.nonempty_at? hat hne)
    refine ⟨?_, more, ?_, hmore⟩
    · rintro rfl
      -- Nothing stands in a branch without parts, and it is no leaf itself.
      cases more <;> cases hleaf
    · rw [at?_append, hat, Option.bind_some, hleaf]

/-- A path that goes on below another one, and one that ends in an empty name, in two orders. -/
theorem ofPaths_exact_overlapping :
    let listed := ["a", "a.b", "c."]
    let tree := branch (ofPaths listed)
    tree.Alike (branch (ofPaths ["c.", "a.b", "a", "c."])) ∧
      tree.at? ["a"] = some .leaf ∧ (∃ path ∈ listed, MaskTree.names path = ["a"]) ∧
      tree.at? ["c"] = some (.branch [("", .leaf)]) ∧
      ∃ more, tree.at? (["c"] ++ more) = some .leaf ∧
        ∃ path ∈ listed, MaskTree.names path = ["c"] ++ more := by
  intro listed tree
  have hnames : listed.map MaskTree.names = [["a"], ["a", "b"], ["c", ""]] := by
    decide
  -- The paths are listed in the order in which they are added.
  have htree : tree = branch [("a", .leaf), ("c", .branch [("", .leaf)])] := by
    simp only [tree, ofPaths, hnames]
    rw [List.mergeSort_of_pairwise (by decide)]
    rfl
  have hleaf : tree.at? ["a"] = some .leaf := htree ▸ rfl
  have hinner : tree.at? ["c"] = some (.branch [("", .leaf)]) := htree ▸ rfl
  obtain ⟨hsame, -, hleaves, hbranches⟩ := ofPaths_exact listed
  refine ⟨hsame _ fun path => ?_, hleaf, hleaves ["a"] hleaf, hinner, ?_⟩
  · simp [listed, or_comm, or_left_comm]
  · obtain ⟨hroot, -⟩ | ⟨-, hmore⟩ := hbranches ["c"] _ hinner
    · cases hroot
    · exact hmore

end RecordStore.MaskTree
