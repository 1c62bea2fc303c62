import RecordStore.Predicate.Basic
import RecordStore.Predicate.Cast

/-!
# Written predicates

The written form of a predicate tree is a dictionary with an operator, a list of conditions and a
list of such dictionaries. `Form.check` refuses the first fault that it meets, `Form.faults`
collects them all, and `Form.toPredicate` builds the tree of a form without faults, casting the
values that name a type.
-/

namespace RecordStore

/-- A collection whose members are the columns that may be named. -/
abbrev AllowedColumns : Type := Datum

namespace AllowedColumns

/-- Whether a text is part of another. -/
def isPart (part : List Char) : List Char → Bool
  | [] => part.isEmpty
  | c :: rest => part.isPrefixOf (c :: rest) || isPart part rest

/-- Whether a datum is this text. -/
def isText (name : String) : Datum → Bool
  | .text s => s = name
  | _ => false

/-- Whether a column may be named; a text allows its parts, and byte strings are not asked. -/
def permits (allowed : AllowedColumns) (column : String) : Except Error Bool :=
  match allowed with
  | .list items | .tuple items | .set items | .frozenSet items => .ok (items.any (isText column))
  | .dict entries => .ok (entries.any fun entry => isText column entry.1)
  | .text s => .ok (isPart column.toList s.toList)
  | .view _ | .model _ _ _ => .ok false
  | .bytes _ | .buffer _ | .binary _ => .error (.badType .notByteContainer)
  | _ => .error (.badType (.notContainer (Datum.fullTypeName allowed)))

end AllowedColumns

namespace Form

/-- The path of a whole form. -/
def rootPath : String := "<root>"

/-- The path of an item of a list of a node. -/
def itemPath (path list : String) (index : Nat) : String :=
  path ++ "." ++ list ++ "[" ++ toString index ++ "]"

/-- The text under a key, if it is one and not empty. -/
def nonEmptyText? (d : Option Datum) : Option String :=
  match d with
  | some (.text s) => if s = "" then none else some s
  | _ => none

/-- The operator of a node, whatever the case of its letters. -/
def logical? (name : String) : Option Logical :=
  Logical.ofName? (String.ofList (Text.lower name.toList))

/-- The comparison whose symbol a datum is. -/
def comparison? (d : Datum) : Option Comparison :=
  match d with
  | .text s => Comparison.ofSymbol? s
  | _ => none

/-- The list under a key; a missing key stands for the empty list. -/
def list? (d : Option Datum) : Option (List Datum) :=
  match d with
  | none => some []
  | some (.list items) => some items
  | some _ => none

/-- The symbols of all comparisons in their order as texts. -/
def sortedSymbols : List String := Error.sortTexts Comparison.symbols

/-- Whether a datum is the name of a type that values can be cast to, or null. -/
def namesCast (d : Datum) : Except Error Bool :=
  match d with
  | .null => .ok true
  | .text s => .ok (CastType.ofName? s).isSome
  | _ => d.checkHashable.map fun _ => false

/-! ### The first fault -/

/-- Refuses a part of a form for a fault. -/
def refuse (path : String) (fault : FormFault) : Except Error Unit :=
  .error (.query (.form fault) (.text path))

/-- Refuses the column of a condition that is missing, empty, no text, or may not be named. -/
def checkColumn (allowed : Option AllowedColumns) (path : String) (column : Option Datum) :
    Except Error Unit := do
  match nonEmptyText? column, allowed with
  | none, _ => refuse path .columnMissing
  | some _, none => return
  | some name, some columns =>
    if ← columns.permits name then return else refuse path (.columnForbidden name)

/-- Refuses the first fault of a condition: of its operator, its column, or the type that it names. -/
def checkCondition (allowed : Option AllowedColumns) (path : String) (d : Datum) :
    Except Error Unit := do
  match d with
  | .dict entries =>
    let operator := (Datum.lookup "op" entries).getD .null
    if (comparison? operator).isNone then
      .error (.showing operator.isWritable (.unknownOperator operator sortedSymbols (.text path)))
    checkColumn allowed path (Datum.lookup "column" entries)
    let target := (Datum.lookup "value_type" entries).getD .null
    if ← namesCast target then return
    else .error (.showing target.isWritable (.query (.form (.unknownValueType target)) (.text path)))
  | _ => refuse path (.notObject d.typeName)

/-- Refuses the operator of a node that is missing, empty, no text, or unknown. -/
def checkOperator (path : String) (operator : Option Datum) : Except Error Unit :=
  match nonEmptyText? operator with
  | none => refuse path .operatorMissing
  | some name =>
    if (logical? name).isSome then .ok ()
    else .error (.unknownOperator (.text name) Logical.names (.text path))

/-- Refuses the first fault of the conditions of a node, from an index on. -/
def checkConditions (allowed : Option AllowedColumns) (path : String) (index : Nat) :
    List Datum → Except Error Unit
  | [] => .ok ()
  | d :: rest => do
    checkCondition allowed (itemPath path "params" index) d
    checkConditions allowed path (index + 1) rest

/-- Refuses the first fault of a node that may have so many levels. -/
def checkNode (allowed : Option AllowedColumns) (levels : Nat) (path : String) (d : Datum) :
    Except Error Unit := do
  match d, levels with
  | .dict _, 0 => refuse path .tooDeep
  | .dict entries, levels + 1 =>
    checkOperator path (Datum.lookup "op" entries)
    match list? (Datum.lookup "params" entries) with
    | none => refuse path .paramsNotList
    | some conditions => checkConditions allowed path 0 conditions
    match list? (Datum.lookup "children" entries) with
    | none => refuse path .childrenNotList
    | some children =>
      children.zipIdx.forM fun (child, index) =>
        checkNode allowed levels (itemPath path "children" index) child
  | _, _ => refuse path (.notObject d.typeName)

/-- Refuses the first fault of a written predicate. -/
def check (allowed : Option AllowedColumns) (d : Datum) : Except Error Unit :=
  checkNode allowed maxPredicateDepth rootPath d

/-! ### All faults -/

/-- Faults with their paths, in the order in which they were met. -/
abbrev Faults : Type := List (String × FormFault)

/-- The fault of the column of a condition, if it has one. -/
def columnFaults (allowed : Option AllowedColumns) (path : String) (column : Option Datum) :
    Except Error Faults := do
  match nonEmptyText? column, allowed with
  | none, _ => return [(path, .columnMissing)]
  | some _, none => return []
  | some name, some columns =>
    if ← columns.permits name then return [] else return [(path, .columnForbidden name)]

/-- A fault of a datum that its message shows, unless the datum passes. -/
def faultUnless (passes : Bool) (path : String) (given : Datum) (fault : FormFault) :
    Except Error Faults :=
  if passes then .ok []
  else if given.isWritable then .ok [(path, fault)]
  else .error (.badValue .tooLongToWrite)

/-- The faults of a condition: of its operator, its column, and the type that it names. -/
def conditionFaults (allowed : Option AllowedColumns) (path : String) (d : Datum) :
    Except Error Faults := do
  match d with
  | .dict entries =>
    let operator := (Datum.lookup "op" entries).getD .null
    let operatorFaults ←
      faultUnless (comparison? operator).isSome path operator (.unknownComparison operator)
    let columnFaults ← columnFaults allowed path (Datum.lookup "column" entries)
    let target := (Datum.lookup "value_type" entries).getD .null
    let castFaults ← faultUnless (← namesCast target) path target (.unknownValueType target)
    return operatorFaults ++ columnFaults ++ castFaults
  | _ => return [(path, .notObject d.typeName)]

/-- The fault of the operator of a node, if it has one. -/
def operatorFaults (path : String) (operator : Option Datum) : Faults :=
  match nonEmptyText? operator with
  | none => [(path, .operatorMissing)]
  | some name => if (logical? name).isSome then [] else [(path, .unknownLogical name)]

/-- The faults of the conditions of a node, from an index on. -/
def conditionsFaults (allowed : Option AllowedColumns) (path : String) (index : Nat) :
    List Datum → Except Error Faults
  | [] => .ok []
  | d :: rest => do
    return (← conditionFaults allowed (itemPath path "params" index) d) ++
      (← conditionsFaults allowed path (index + 1) rest)

/-- The faults of a node that may have so many levels. -/
def nodeFaults (allowed : Option AllowedColumns) (levels : Nat) (path : String) (d : Datum) :
    Except Error Faults := do
  match d, levels with
  | .dict _, 0 => return [(path, .tooDeep)]
  | .dict entries, levels + 1 =>
    let ofConditions ← match list? (Datum.lookup "params" entries) with
      | none => pure [(path, .paramsNotList)]
      | some conditions => conditionsFaults allowed path 0 conditions
    let ofChildren ← match list? (Datum.lookup "children" entries) with
      | none => pure [(path, .childrenNotList)]
      | some children =>
        pure (← children.zipIdx.mapM fun (child, index) =>
          nodeFaults allowed levels (itemPath path "children" index) child).flatten
    return operatorFaults path (Datum.lookup "op" entries) ++ ofConditions ++ ofChildren
  | _, _ => return [(path, .notObject d.typeName)]

/-- All faults of a written predicate. -/
def faults (allowed : Option AllowedColumns) (d : Datum) : Except Error Faults :=
  nodeFaults allowed maxPredicateDepth rootPath d

/-- A message for each fault of a written predicate. -/
def validate (allowed : Option AllowedColumns) (d : Datum) : Except Error (List String) := do
  return (← faults allowed d).map fun (path, fault) => path ++ ": " ++ fault.message

/-! ### The tree of a form -/

/-- The condition of a checked form; its value is cast if the form names a type. -/
def buildCondition (d : Datum) : Except Error Condition := do
  match d with
  | .dict entries =>
    let column := (nonEmptyText? (Datum.lookup "column" entries)).getD ""
    let given := (Datum.lookup "value" entries).getD .null
    let operand ← match Datum.lookup "value_type" entries with
      | some target => given.cast target
      | none => pure given
    Condition.make (.text column) ((Datum.lookup "op" entries).getD .null) operand
  | _ => .error (.query (.form (.notObject d.typeName)) .null)

/-- The tree of a checked form that may have so many levels. -/
def buildNode (levels : Nat) (d : Datum) : Except Error Predicate := do
  match d, levels with
  | .dict entries, levels + 1 =>
    match (nonEmptyText? (Datum.lookup "op" entries)).bind logical? with
    | none => .error (.query (.form .operatorMissing) .null)
    | some operator =>
      let conditions ←
        ((list? (Datum.lookup "params" entries)).getD []).mapM buildCondition
      let children ←
        ((list? (Datum.lookup "children" entries)).getD []).mapM (buildNode levels)
      return .node (Connective.ofLogical operator) conditions children
  | _, _ => .error (.query (.form (.notObject d.typeName)) .null)

/-- The predicate of a written form. -/
def toPredicate (allowed : Option AllowedColumns) (d : Datum) : Except Error Predicate := do
  check allowed d
  buildNode maxPredicateDepth d

/-- The predicate of a written form in JSON, read on a stack with room for so many levels. -/
def ofJsonText (allowed : Option AllowedColumns) (text : String)
    (levels : Nat := Json.usualLevels) : Except Error Predicate := do
  match Json.read text levels with
  | .error failure =>
    match failure.complaint with
    -- These two are no faults of the JSON, but limits of its reader.
    | .tooManyDigits _ | .tooDeep _ => .error (.ofComplaint failure.complaint)
    | _ => .error (.query (.invalidJson failure) (.text rootPath))
  | .ok (.object members) => toPredicate allowed (Datum.ofJson (.object members))
  | .ok _ => .error (.query .jsonNotObject (.text rootPath))

end Form

end RecordStore
