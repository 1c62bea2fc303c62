import RecordStore.Model.Schema
import RecordStore.Text.Path

/-!
# Field masks

The paths of a mask as a tree: a leaf keeps everything below it, a branch only what its own branches
and leaves say. A path that goes on below another one adds nothing.
-/

namespace RecordStore

/-- What a mask keeps of an instance. -/
inductive MaskTree
  /-- Keeps the whole field. -/
  | leaf
  | branch (parts : List (String × MaskTree))

namespace MaskTree

/-- Adds the path of some names to the parts of a branch. -/
def insert (names : List String) (parts : List (String × MaskTree)) : List (String × MaskTree) :=
  match names with
  | [] => parts
  | [name] => Assoc.put name .leaf parts
  | name :: rest =>
    match Assoc.get? name parts with
    | some .leaf => parts
    | some (.branch below) => Assoc.put name (.branch (insert rest below)) parts
    | none => Assoc.put name (.branch (insert rest [])) parts

/-- The names of a path. -/
def names (path : String) : List String := Text.dottedNames path

/-- The parts of the tree of some paths; shorter paths are added first. -/
def ofPaths (paths : List String) : List (String × MaskTree) :=
  -- A leaf that is in place cuts off every longer path that comes later.
  let sorted := (paths.map names).mergeSort fun a b => a.length ≤ b.length
  sorted.foldl (fun parts path => insert path parts) []

mutual

/-- The tree as nested objects whose leaves are true. -/
def toJson : MaskTree → Json
  | .leaf => .boolean true
  | .branch parts => .object (partsToJson parts)

/-- The members that stand for the parts of a branch. -/
def partsToJson : List (String × MaskTree) → List (String × Json)
  | [] => []
  | (name, tree) :: rest => (name, toJson tree) :: partsToJson rest

end

mutual

/-- The fields of an instance that a tree keeps, everything else being cleared. -/
def keep (c : Catalog) (d : Datum) : MaskTree → Datum
  | .leaf => d
  | .branch parts =>
    match d with
    | .model shape fields _ =>
      match c.find? shape.name with
      | some schema => schema.fill (keepParts c fields parts)
      | none => d
    | _ => d

/-- The fields that the parts of a branch keep. -/
def keepParts (c : Catalog) (fields : List (String × Datum)) :
    List (String × MaskTree) → List (String × Datum)
  | [] => []
  | (name, tree) :: rest =>
    match Assoc.get? name fields with
    | some d => (name, keep c d tree) :: keepParts c fields rest
    | none => keepParts c fields rest

end

end MaskTree

end RecordStore
