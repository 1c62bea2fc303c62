/-!
# Arguments

How the arguments of a call are matched with the parameters of what is called: by position, by name,
or left out where there is a default.
-/

namespace RecordStore

/-- The parameters of a constructor. Those that must be given come before those that may be left
out. -/
structure Signature where
  /-- What is called. -/
  callee : String
  required : List String := []
  optional : List String := []
  /-- The parameters that are given by name alone and may be left out. -/
  named : List String := []

/-- Why arguments do not match their parameters. -/
inductive ArgumentFault
  /-- So many arguments are given by position, and so many by names that stand for no position. -/
  | tooMany (signature : Signature) (given named : Nat)
  | missing (signature : Signature) (names : List String)
  | twice (signature : Signature) (name : String)

namespace Signature

/-- The parameters that have positions. -/
def positions (s : Signature) : List String := s.required ++ s.optional

/-- How many arguments a constructor takes by position, the object or type that it belongs to
included. -/
def countText (s : Signature) : String :=
  let most := s.positions.length + 1
  if s.optional = [] then toString most ++ " positional argument" ++ (if most = 1 then "" else "s")
  else "from " ++ toString (s.required.length + 1) ++ " to " ++ toString most ++
    " positional arguments"

/-- The first fault of so many arguments by position and others by name. The constructed object is
an argument as well, and the first one. -/
def fault? (s : Signature) (given : Nat) (names : List String) : Option ArgumentFault :=
  match names.find? (("self" :: s.positions.take given).contains ·) with
  | some name => some (.twice s name)
  | none =>
    if s.positions.length < given then
      some (.tooMany s given (names.filter s.named.contains).length)
    else
      match (s.required.drop given).filter fun name => !names.contains name with
      | [] => none
      | missing => some (.missing s missing)

end Signature

namespace ArgumentFault

/-- A count with its noun, in the plural unless the count is one. -/
def plural (count : Nat) (noun : String) : String :=
  toString count ++ " " ++ noun ++ (if count = 1 then "" else "s")

/-- Names in quotes, the last one behind an "and". -/
def listed (names : List String) : String :=
  let quoted := names.map fun name => "'" ++ name ++ "'"
  match quoted with
  | [] => ""
  | [a] => a
  | [a, b] => a ++ " and " ++ b
  | _ => ", ".intercalate quoted.dropLast ++ ", and " ++ quoted.getLast?.getD ""

/-- The wording of a fault. -/
def message : ArgumentFault → String
  | .tooMany s given named =>
    -- The object or type that the constructor belongs to counts as the first argument.
    let count := given + 1
    let shown :=
      if named = 0 then toString count
      else plural count "positional argument" ++ " (and " ++ plural named "keyword-only argument" ++ ")"
    s.callee ++ "() takes " ++ s.countText ++ " but " ++ shown ++
      (if count = 1 ∧ named = 0 then " was" else " were") ++ " given"
  | .missing s names =>
    s.callee ++ "() missing " ++ plural names.length "required positional argument" ++ ": " ++
      listed names
  | .twice s name => s.callee ++ "() got multiple values for argument '" ++ name ++ "'"

end ArgumentFault

end RecordStore
