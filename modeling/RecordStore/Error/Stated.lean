import RecordStore.Datum.Elements
import RecordStore.Datum.Order
import RecordStore.Sorting

/-!
# Errors from arguments

Makes an error of a named class from whatever arguments a caller states. Some classes have
parameters of their own; all others take any arguments, which together are the message.
-/

namespace RecordStore.Error

/-- The message of arguments: none is empty, one is shown bare, several are shown as a tuple. -/
def statedMessage : List Datum → String
  | [] => ""
  | [argument] => argument.display
  | arguments => (Datum.tuple arguments).show

/-- The texts among data, which must all be texts to be joined. -/
def joinable (position : Nat) : List Datum → Except Error (List String)
  | [] => .ok []
  | .text s :: rest => do return s :: (← joinable (position + 1) rest)
  | d :: _ => .error (.badType (.notJoined position d.fullTypeName))

/-- The names of valid operators. They are compared with an operator that is a text, then sorted and
joined, and data that are no texts fail at one of the three. -/
def operatorNames (given valid : Datum) : Except Error (List String) := do
  let items ← valid.elements
  let unsized := items.find? fun item => !item.hasLength
  match given, unsized with
  | .text _, some item => .error (.badType (.noLength item.fullTypeName))
  | _, _ =>
    let _ ← joinable 0 (← Sorting.sort Datum.less items)
    joinable 0 items

/-- The parameters of the classes that have any. -/
def signatures : List Signature :=
  [{ callee := "QueryError.__init__", required := ["message"], optional := ["path"] },
    { callee := "UnknownOperatorError.__init__", required := ["operator", "valid_operators"],
      optional := ["path"] },
    { callee := "ColumnTypeError.__init__", required := ["column_type", "value"] }]

/-- The fault of so many arguments for a class. -/
def argumentFault? (name : String) (count : Nat) : Option ArgumentFault :=
  (signatures.find? fun s => s.callee = name ++ ".__init__").bind fun s => s.fault? count []

/-- The error of a class with some arguments. -/
def ofArguments (name : String) (arguments : List Datum) : Except Error Error := do
  if let some fault := argumentFault? name arguments.length then
    .error (.badType (.arguments fault))
  match name, arguments with
  | "QueryError", message :: rest => return .query (.stated message) (rest.headD .null)
  | "UnknownOperatorError", given :: valid :: rest =>
    if !given.isWritable then .error (.badValue .tooLongToWrite)
    return .unknownOperator given (← operatorNames given valid) (rest.headD .null)
  | "ColumnTypeError", column :: given :: _ =>
    if !given.isWritable then .error (.badValue .tooLongToWrite)
    return .columnType (← column.written) given
  | _, _ => return .ofClass name (statedMessage arguments)

end RecordStore.Error
