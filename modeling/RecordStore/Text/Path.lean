/-!
# Dotted paths

A path is written as names with points between them. A text without a point is the path of one name.
-/

namespace RecordStore.Text

/-- What stands between the points of a text, before the first and behind the last one. -/
def splitAtPoints : List Char → List (List Char)
  | [] => [[]]
  | c :: rest =>
    let parts := splitAtPoints rest
    if c = '.' then [] :: parts else (c :: parts.headD []) :: parts.tail

/-- The names of a dotted path. -/
def dottedNames (path : String) : List String := (splitAtPoints path.toList).map String.ofList

/-- Every path has a name, even the empty one. -/
theorem dottedNames_ne_nil (path : String) : dottedNames path ≠ [] := by
  rw [dottedNames, ne_eq, List.map_eq_nil_iff]
  cases path.toList with
  | nil => exact List.cons_ne_nil _ _
  | cons c rest =>
    rw [splitAtPoints]
    split
    · exact List.cons_ne_nil _ _
    · exact List.cons_ne_nil _ _

/-- A name without a point is a path of its own. -/
theorem dottedNames_of_undotted {name : String} (h : '.' ∉ name.toList) : dottedNames name = [name] := by
  have hsplit (chars : List Char) (hchars : '.' ∉ chars) : splitAtPoints chars = [chars] := by
    induction chars with
    | nil => rfl
    | cons c rest ih =>
      rw [List.mem_cons, not_or] at hchars
      rw [splitAtPoints, ih hchars.2, if_neg (Ne.symm hchars.1)]
      rfl
  rw [dottedNames, hsplit _ h, List.map_singleton, String.ofList_toList]

end RecordStore.Text
