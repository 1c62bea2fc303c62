import Mathlib.Data.List.Basic
import RecordStore.Key

/-!
# Texts of keys

The text of a key is an identifier of its record, but it does not always tell the key: kinds and
names are written as they are, so a colon or a slash in one of them reads like one between them. The
key is told where no kind has a colon and no name a slash (`eq_of_toText_eq`). In general a key is
the only one with its text exactly if one colon of the text has something on both sides
(`only_key_iff`); in particular, no key below another one is.
-/

namespace RecordStore

theorem Json.isTruthy_string {s : String} (h : s ≠ "") : (Json.string s).isTruthy = true :=
  decide_eq_true h

namespace Step

/-- A link whose kind and name are texts. -/
def IsText (s : Step) : Prop := ∃ kind name, s.kind = .string kind ∧ s.name = .string name

/-- A link of texts, without a colon in its kind or a slash in its name. -/
def Divides (s : Step) : Prop :=
  ∃ kind name, s.kind = .string kind ∧ s.name = .string name ∧
    ':' ∉ kind.toList ∧ '/' ∉ name.toList

/-- The link of a kind and a name that are not empty. -/
def ofTexts (kind name : String) (hkind : kind ≠ "") (hname : name ≠ "") : Step :=
  ⟨.string kind, .string name, Json.isTruthy_string hkind, Json.isTruthy_string hname⟩

/-- The characters of a link. -/
def chars (s : Step) : List Char := s.toText.toList

/-- A step is written as its labels with a colon between them. -/
theorem chars_eq {s : Step} {kind name : String} (hkind : s.kind = .string kind)
    (hname : s.name = .string name) : s.chars = kind.toList ++ ':' :: name.toList := by
  rw [chars, toText, hkind, hname, String.toList_append, String.toList_append, List.append_assoc]
  rfl

/-- A step is its two labels. -/
theorem eq_of_kind_of_name {s t : Step} (hkind : s.kind = t.kind) (hname : s.name = t.name) :
    s = t := by
  cases s
  cases t
  cases hkind
  cases hname
  rfl

end Step

namespace Key

/-- A key of texts. -/
def IsText (k : Key) : Prop := ∀ s ∈ k.path, s.IsText

/-- A key of texts, without a colon in a kind or a slash in a name. -/
def Divides (k : Key) : Prop := ∀ s ∈ k.path, s.Divides

/-- A key is its path. -/
theorem eq_of_path_eq {k k' : Key} (h : k.path = k'.path) : k = k' := by
  have hlinks : k.own :: k.above = k'.own :: k'.above := List.reverse_injective h
  cases k
  cases k'
  cases hlinks
  rfl

/-! ## Dividing texts -/

/-- Where a mark first stands, a list is divided in one way. -/
theorem append_cons_inj_of_first {α : Type} {mark : α} {a a' b b' : List α} (ha : mark ∉ a)
    (ha' : mark ∉ a') (h : a ++ mark :: b = a' ++ mark :: b') : a = a' ∧ b = b' := by
  -- Both sides give up one character at a time until one of them meets the mark.
  induction a generalizing a' with
  | nil =>
    cases a' with
    | nil => exact ⟨rfl, (List.cons.inj h).2⟩
    | cons y ys =>
      obtain ⟨rfl, -⟩ := List.cons.inj h
      exact absurd List.mem_cons_self ha'
  | cons x xs ih =>
    cases a' with
    | nil =>
      obtain ⟨rfl, -⟩ := List.cons.inj h
      exact absurd List.mem_cons_self ha
    | cons y ys =>
      obtain ⟨rfl, hrest⟩ := List.cons.inj h
      obtain ⟨rfl, rfl⟩ :=
        ih (List.not_mem_of_not_mem_cons ha) (List.not_mem_of_not_mem_cons ha') hrest
      exact ⟨rfl, rfl⟩

/-- Between some texts, and behind the last one, a mark stands behind each of them. -/
theorem intercalate_append_mark {α : Type} (mark : α) {texts : List (List α)} (h : texts ≠ []) :
    [mark].intercalate texts ++ [mark] = texts.flatMap (· ++ [mark]) := by
  induction texts with
  | nil => exact absurd rfl h
  | cons text rest ih =>
    cases rest with
    | nil => simp
    | cons next others =>
      rw [List.intercalate_cons_cons, List.append_assoc, ih (List.cons_ne_nil _ _)]
      rfl

/-- The text of a key with a slash behind it is made of its links, each with a slash behind it. -/
theorem toText_append_slash (k : Key) :
    k.toText.toList ++ ['/'] = k.path.flatMap fun s => s.chars ++ ['/'] := by
  have hpath : (k.path.map Step.toText).map String.toList ≠ [] := by simp [path]
  rw [toText, String.toList_intercalate]
  have hmarked := intercalate_append_mark '/' hpath
  rw [List.flatMap_map, List.flatMap_map] at hmarked
  exact hmarked

/-- Links without a colon in a kind or a slash in a name are told by their texts. -/
theorem path_eq_of_chars_eq {p p' : List Step} (hp : ∀ s ∈ p, s.Divides)
    (hp' : ∀ s ∈ p', s.Divides)
    (h : (p.flatMap fun s => s.chars ++ ['/']) = p'.flatMap fun s => s.chars ++ ['/']) :
    p = p' := by
  induction p generalizing p' with
  | nil =>
    cases p' with
    | nil => rfl
    | cons t ts => simp at h
  | cons s ss ih =>
    cases p' with
    | nil => simp at h
    | cons t ts =>
      obtain ⟨⟨kind, name, hkind, hname, hcolon, hslash⟩, hss⟩ := List.forall_mem_cons.mp hp
      obtain ⟨⟨kind', name', hkind', hname', hcolon', hslash'⟩, hts⟩ := List.forall_mem_cons.mp hp'
      simp only [List.flatMap_cons, Step.chars_eq hkind hname, Step.chars_eq hkind' hname',
        List.append_assoc, List.cons_append, List.nil_append] at h
      -- The first colon ends the kind, and then the first slash the name.
      obtain ⟨hkinds, hrest⟩ := append_cons_inj_of_first hcolon hcolon' h
      obtain ⟨hnames, hothers⟩ := append_cons_inj_of_first hslash hslash' hrest
      have hlink : s = t := Step.eq_of_kind_of_name
        (by rw [hkind, hkind', String.toList_injective hkinds])
        (by rw [hname, hname', String.toList_injective hnames])
      rw [hlink, ih hss hts hothers]

/-- Keys of texts without a colon in a kind or a slash in a name are told by their texts. -/
theorem eq_of_toText_eq {k k' : Key} (hk : k.Divides) (hk' : k'.Divides)
    (h : k.toText = k'.toText) : k = k' := by
  refine eq_of_path_eq (path_eq_of_chars_eq hk hk' ?_)
  rw [← toText_append_slash, ← toText_append_slash, h]

/-! ## Inner colons -/

/-- The number of colons that have something on both sides. -/
def innerColons (text : List Char) : Nat := text.tail.dropLast.count ':'

/-- The colons between the ends of a text are those in its middle. -/
theorem innerColons_ends (x y : Char) (m : List Char) :
    innerColons (x :: (m ++ [y])) = m.count ':' := by
  rw [innerColons, List.tail_cons, List.dropLast_concat]

/-- What is inside of a part is inside of the whole. -/
theorem innerColons_append (a b : List Char) :
    innerColons a + innerColons b ≤ innerColons (a ++ b) := by
  rcases a with _ | ⟨x, a⟩
  · simp [innerColons]
  rcases List.eq_nil_or_concat b with rfl | ⟨b, y, rfl⟩
  · simp [innerColons]
  · rw [List.concat_eq_append]
    have hleft : a.dropLast.count ':' ≤ a.count ':' := (List.dropLast_sublist a).count_le _
    have hright : b.tail.count ':' ≤ b.count ':' := (List.tail_sublist b).count_le _
    have hlast : innerColons (b ++ [y]) = b.tail.count ':' := by
      cases b with
      | nil => rfl
      | cons z zs => exact innerColons_ends z y zs
    rw [List.cons_append, ← List.append_assoc, innerColons_ends, List.count_append, hlast,
      innerColons, List.tail_cons]
    omega

end Key

namespace Step

/-- A text that counts as true has characters. -/
theorem ne_nil_of_isTruthy {text : String} (h : (Json.string text).isTruthy) :
    text.toList ≠ [] := by
  intro hnil
  have hempty : text ≠ "" := of_decide_eq_true h
  exact hempty (String.toList_injective hnil)

/-- A link of texts has something before its colon and something behind it. -/
theorem exists_ends {s : Step} (h : s.IsText) : ∃ x a b y,
    s.kind = .string (String.ofList (x :: a)) ∧ s.name = .string (String.ofList (b ++ [y])) ∧
      s.chars = x :: ((a ++ ':' :: b) ++ [y]) := by
  obtain ⟨kind, name, hkind, hname⟩ := h
  have hkindChars := ne_nil_of_isTruthy (hkind ▸ s.kind_truthy)
  have hnameChars := ne_nil_of_isTruthy (hname ▸ s.name_truthy)
  obtain ⟨x, a, hxa⟩ := List.exists_cons_of_ne_nil hkindChars
  obtain hnil | ⟨b, y, hby⟩ := List.eq_nil_or_concat name.toList
  · exact absurd hnil hnameChars
  rw [List.concat_eq_append] at hby
  refine ⟨x, a, b, y, ?_, ?_, ?_⟩
  · rw [hkind, ← hxa, String.ofList_toList]
  · rw [hname, ← hby, String.ofList_toList]
  · rw [chars_eq hkind hname, hxa, hby]
    simp

end Step

namespace Key

/-- A link adds a colon to those that are inside. -/
theorem length_path_le {p : List Step} (h : ∀ s ∈ p, s.IsText) :
    p.length ≤ innerColons (['/'].intercalate (p.map Step.chars)) := by
  induction p with
  | nil => exact Nat.zero_le _
  | cons s rest ih =>
    obtain ⟨hs, hrest⟩ := List.forall_mem_cons.mp h
    obtain ⟨x, a, b, y, -, -, hchars⟩ := s.exists_ends hs
    -- Each step has a colon of its own, which stands inside.
    have hown : 1 ≤ innerColons s.chars := by
      rw [hchars, innerColons_ends, List.count_append, List.count_cons_self]
      omega
    cases rest with
    | nil => simpa using hown
    | cons t others =>
      have hothers := ih hrest
      rw [List.map_cons, List.map_cons, List.intercalate_cons_cons, ← List.map_cons,
        List.length_cons]
      have hslash := innerColons_append s.chars ['/']
      have hboth := innerColons_append (s.chars ++ ['/'])
        (['/'].intercalate ((t :: others).map Step.chars))
      omega

/-- The text of a key has slashes between its steps. -/
theorem toList_toText (k : Key) :
    k.toText.toList = ['/'].intercalate (k.path.map Step.chars) := by
  rw [toText, String.toList_intercalate, List.map_map]
  rfl

/-- The key without any above it whose kind and name are the two sides of a colon. -/
theorem exists_key_of_colon (x y : Char) (a b : List Char) :
    ∃ k : Key, k.IsText ∧ k.kind = .string (String.ofList (x :: a)) ∧
      k.toText.toList = x :: ((a ++ ':' :: b) ++ [y]) := by
  have hkind : String.ofList (x :: a) ≠ "" := by
    intro h
    exact absurd (congrArg String.toList h) (by simp)
  have hname : String.ofList (b ++ [y]) ≠ "" := by
    intro h
    exact absurd (congrArg String.toList h) (by simp)
  -- The colon divides the text, and the ends keep both labels from being empty.
  let own : Step := .ofTexts _ _ hkind hname
  refine ⟨⟨own, []⟩, ?_, rfl, ?_⟩
  · intro s hs
    obtain rfl : s = own := by simpa [path] using hs
    exact ⟨_, _, rfl, rfl⟩
  · rw [toList_toText]
    have hchars := Step.chars_eq (s := own) rfl rfl
    simp only [path, List.reverse_singleton, List.map_cons, List.map_nil,
      List.intercalate_singleton, hchars, String.toList_ofList]
    simp

/-- A key whose text has one inner colon has no key above it. -/
theorem chars_own {k : Key} (hk : k.IsText) (h : innerColons k.toText.toList = 1) :
    k.above = [] ∧ k.toText.toList = k.own.chars := by
  have hlength := length_path_le hk
  rw [← toList_toText, h, path, List.length_reverse, List.length_cons] at hlength
  have habove : k.above = [] := List.length_eq_zero_iff.mp (by omega)
  refine ⟨habove, ?_⟩
  rw [toList_toText, path, habove]
  exact List.intercalate_singleton

/-- One inner colon tells the key. -/
theorem eq_of_innerColons {k k' : Key} (hk : k.IsText) (hk' : k'.IsText)
    (h : innerColons k.toText.toList = 1) (htext : k'.toText = k.toText) : k' = k := by
  obtain ⟨habove, hown⟩ := chars_own hk h
  obtain ⟨habove', hown'⟩ := chars_own hk' (by rw [htext, h])
  obtain ⟨x, a, b, y, hkind, hname, hchars⟩ :=
    k.own.exists_ends (hk _ (by simp [path]))
  obtain ⟨x', a', b', y', hkind', hname', hchars'⟩ :=
    k'.own.exists_ends (hk' _ (by simp [path]))
  have hsame : x' :: ((a' ++ ':' :: b') ++ [y']) = x :: ((a ++ ':' :: b) ++ [y]) := by
    rw [← hchars, ← hchars', ← hown, ← hown', htext]
  obtain ⟨rfl, hrest⟩ := List.cons.inj hsame
  obtain ⟨hinner, hlast⟩ := List.append_inj' hrest rfl
  -- Neither link has another inner colon, so the colons stand at the same place.
  have hcount : (a ++ ':' :: b).count ':' = 1 := by
    rw [← innerColons_ends x' y, ← hchars, ← hown, h]
  have hcount' : (a' ++ ':' :: b').count ':' = 1 := by rw [hinner, hcount]
  rw [List.count_append, List.count_cons_self] at hcount hcount'
  have ha : ':' ∉ a := List.count_eq_zero.mp (by omega)
  have ha' : ':' ∉ a' := List.count_eq_zero.mp (by omega)
  obtain ⟨rfl, rfl⟩ := append_cons_inj_of_first ha' ha hinner
  obtain rfl := List.singleton_inj.mp hlast
  have hlink : k'.own = k.own :=
    Step.eq_of_kind_of_name (hkind'.trans hkind.symm) (hname'.trans hname.symm)
  cases k
  cases k'
  cases hlink
  cases habove
  cases habove'
  rfl

/-- A second inner colon makes a second key with the same text. -/
theorem exists_other_key {k : Key} (h : 2 ≤ innerColons k.toText.toList) :
    ∃ k' : Key, k'.IsText ∧ k'.toText = k.toText ∧ k' ≠ k := by
  obtain ⟨x, m, y, hends⟩ : ∃ x m y, k.toText.toList = x :: (m ++ [y]) := by
    rcases htext : k.toText.toList with _ | ⟨x, rest⟩
    · simp [htext, innerColons] at h
    obtain rfl | ⟨m, y, rfl⟩ := List.eq_nil_or_concat rest
    · simp [htext, innerColons] at h
    · exact ⟨x, m, y, by rw [List.concat_eq_append]⟩
  rw [hends, innerColons_ends] at h
  -- The key may be divided at the first inner colon or at the second.
  obtain ⟨a, b, rfl, ha⟩ :=
    List.eq_append_cons_of_mem (List.count_pos_iff.mp (by omega : 0 < m.count ':'))
  rw [List.count_append, List.count_cons_self, List.count_eq_zero.mpr ha] at h
  obtain ⟨c, d, rfl⟩ := List.append_of_mem (List.count_pos_iff.mp (by omega : 0 < b.count ':'))
  obtain ⟨first, hfirst, hfirstKind, hfirstText⟩ := exists_key_of_colon x y a (c ++ ':' :: d)
  obtain ⟨second, hsecond, hsecondKind, hsecondText⟩ := exists_key_of_colon x y (a ++ ':' :: c) d
  have hsame : first.toText = k.toText := String.toList_injective (hfirstText.trans hends.symm)
  have hsame' : second.toText = k.toText := by
    refine String.toList_injective (hsecondText.trans ?_)
    rw [hends]
    simp
  by_cases hkey : first = k
  · refine ⟨second, hsecond, hsame', ?_⟩
    rintro rfl
    rw [hkey, hsecondKind] at hfirstKind
    have hkinds := congrArg String.toList (Json.string.inj hfirstKind)
    simp at hkinds
  · exact ⟨first, hfirst, hsame, hkey⟩

/-- A key of texts is the only one with its text exactly if one colon of the text has something on
both sides. -/
theorem only_key_iff {k : Key} (hk : k.IsText) :
    (∀ k' : Key, k'.IsText → k'.toText = k.toText → k' = k) ↔ innerColons k.toText.toList = 1 := by
  constructor
  · intro honly
    have hlength := length_path_le hk
    rw [← toList_toText, path, List.length_reverse, List.length_cons] at hlength
    by_contra hmore
    obtain ⟨k', hk', hsame, hother⟩ := exists_other_key (k := k) (by omega)
    exact hother (honly k' hk' hsame)
  · intro h k' hk' htext
    exact eq_of_innerColons hk hk' h htext

/-- A key below another one is never the only one with its text. -/
theorem exists_other_key_of_above {k : Key} (hk : k.IsText) (habove : k.above ≠ []) :
    ∃ k' : Key, k'.IsText ∧ k'.toText = k.toText ∧ k' ≠ k := by
  have hlength := length_path_le hk
  have hpositive := List.length_pos_iff.mpr habove
  rw [← toList_toText, path, List.length_reverse, List.length_cons] at hlength
  exact exists_other_key (by omega)

/-- What the text of a key of texts tells. It tells the key from all others if no kind has a colon
and no name a slash, on either side. Among all keys of texts, the key is the only one with its text
exactly if one colon of the text has something on both sides; so a key below another one never
is. -/
theorem toText_tells (k : Key) (hk : k.IsText) :
    (k.Divides → ∀ k' : Key, k'.Divides → k'.toText = k.toText → k' = k) ∧
      ((∀ k' : Key, k'.IsText → k'.toText = k.toText → k' = k) ↔ innerColons k.toText.toList = 1) ∧
      (k.above ≠ [] → ∃ k' : Key, k'.IsText ∧ k'.toText = k.toText ∧ k' ≠ k) :=
  ⟨fun hdivides _ hdivides' => eq_of_toText_eq hdivides' hdivides, only_key_iff hk,
    exists_other_key_of_above hk⟩

/-- Colons in names and slashes in kinds do no harm. -/
theorem toText_tells_nested :
    let project : Step := .ofTexts "Team/Project" "p:1" (by decide) (by decide)
    let k : Key := ⟨.ofTexts "Task" "a:b" (by decide) (by decide), [project]⟩
    let k' : Key := ⟨.ofTexts "Task" "b" (by decide) (by decide), [project]⟩
    k.IsText ∧ k.Divides ∧ k'.Divides ∧ k'.toText ≠ k.toText := by
  intro project k k'
  have htext : k.IsText :=
    List.forall_mem_cons.mpr ⟨⟨_, _, rfl, rfl⟩, List.forall_mem_singleton.mpr ⟨_, _, rfl, rfl⟩⟩
  -- Slashes in a kind and colons in a name do no harm.
  have hproject : project.Divides := ⟨_, _, rfl, rfl, by decide, by decide⟩
  have hk : k.Divides :=
    List.forall_mem_cons.mpr
      ⟨hproject, List.forall_mem_singleton.mpr ⟨_, _, rfl, rfl, by decide, by decide⟩⟩
  have hk' : k'.Divides :=
    List.forall_mem_cons.mpr
      ⟨hproject, List.forall_mem_singleton.mpr ⟨_, _, rfl, rfl, by decide, by decide⟩⟩
  refine ⟨htext, hk, hk', fun h => ?_⟩
  have hsame := (toText_tells k htext).1 hk k' hk' h
  exact absurd hsame (by decide)

/-- A name that reads like a link makes a key with the text of another one of the same kind. -/
theorem toText_of_name_like_link :
    let k : Key := ⟨.ofTexts "Task" "a/Task:b" (by decide) (by decide), []⟩
    let k' : Key := ⟨.ofTexts "Task" "b" (by decide) (by decide),
      [.ofTexts "Task" "a" (by decide) (by decide)]⟩
    k.IsText ∧ k'.IsText ∧ k.kind = k'.kind ∧ k.toText = k'.toText ∧ k ≠ k' := by
  intro k k'
  have hk : k.IsText := List.forall_mem_singleton.mpr ⟨_, _, rfl, rfl⟩
  have hk' : k'.IsText :=
    List.forall_mem_cons.mpr ⟨⟨_, _, rfl, rfl⟩, List.forall_mem_singleton.mpr ⟨_, _, rfl, rfl⟩⟩
  exact ⟨hk, hk', rfl, rfl, by decide⟩

end Key

end RecordStore
