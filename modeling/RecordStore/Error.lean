import RecordStore.Arguments
import RecordStore.Datum.Text
import RecordStore.Json.Reader
import RecordStore.Operator
import RecordStore.Text.IllFormed
import RecordStore.Text.Similarity

/-!
# Errors

What can go wrong, as causes. Each cause has one wording, and the errors of this library also
describe themselves as an object for callers. Faults in the use of a type, a value or a range lie
below this library and describe nothing.
-/

namespace RecordStore

/-- The number of levels that a predicate tree may have. -/
def maxPredicateDepth : Nat := 32

/-- What is wrong with the written form of a predicate tree. -/
inductive FormFault
  | notObject (typeName : String)
  | tooDeep
  | operatorMissing
  | unknownLogical (operator : String)
  | paramsNotList
  | childrenNotList
  | unknownComparison (operator : Datum)
  | columnMissing
  | columnForbidden (column : String)
  | unknownValueType (given : Datum)

namespace FormFault

/-- The wording of a fault, without its place. -/
def message : FormFault → String
  | .notObject typeName => "expected dict, got " ++ typeName
  | .tooDeep => "predicate tree exceeds the maximum depth of " ++ toString maxPredicateDepth
  | .operatorMissing => "missing or empty 'op' key"
  | .unknownLogical operator => "unknown logical operator '" ++ operator ++ "'"
  | .paramsNotList => "'params' must be a list"
  | .childrenNotList => "'children' must be a list"
  | .unknownComparison operator => "unknown comparison operator " ++ operator.show
  | .columnMissing => "missing 'column'"
  | .columnForbidden column => "column '" ++ column ++ "' not allowed"
  | .unknownValueType given => "unknown value_type " ++ given.show

end FormFault

/-- The names of the types that a value can be cast to, in alphabetical order. -/
def castNames : List String := ["blob", "boolean", "double", "integer", "string", "timestamp"]

/-- Why a query is malformed. -/
inductive QueryFault
  | columnMissing
  | treeTooDeep
  | unsupportedIdentifier (typeName : String)
  | emptyIdentifier
  | malformedCursor (cursor : String)
  | unknownCast (target : Datum)
  | castFailed (given : Datum) (target : String)
  | form (fault : FormFault)
  | invalidJson (failure : Json.Failure)
  | jsonNotObject
  | stated (message : Datum)

namespace QueryFault

/-- The wording of a fault. -/
def message : QueryFault → String
  | .columnMissing => "Column parameter requires a column name"
  | .treeTooDeep => "Predicate tree exceeds the maximum depth of " ++ toString maxPredicateDepth
  | .unsupportedIdentifier typeName => "Unsupported identifier type: " ++ typeName
  | .emptyIdentifier => "Record identifier must not be empty"
  | .malformedCursor cursor => "Malformed continuation cursor: " ++ Text.quoted cursor
  | .unknownCast target =>
    "Unknown value_type " ++ target.show ++ "; expected one of: " ++ commaSeparated castNames
  | .castFailed given target => "Cannot cast " ++ given.show ++ " to " ++ target
  | .form fault => fault.message
  | .invalidJson failure => "Invalid JSON: " ++ failure.message
  | .jsonNotObject => "Top-level JSON value must be an object"
  | .stated message => message.display

/-- The message as callers are told it. -/
def told : QueryFault → Datum
  | .stated message => message
  | fault => .text fault.message

end QueryFault

/-- A datum of a type that an operation does not take. -/
inductive TypeFault
  | notPayload (typeName : String) (kind : ValueKind)
  | noKind (typeName : String)
  | notNumber (typeName : String)
  | notByteSource (typeName : String)
  | textWithoutEncoding
  | notByte (typeName : String)
  | notSerializable (typeName : String)
  | notEncodable (typeName : String)
  | notKey (typeName : String)
  | notMemberName (typeName : String)
  | notOrdered (left right : String)
  | mixedClocks
  | clockWithDate
  | unhashable (typeName : String)
  /-- What is hashed is a decimal that signals. -/
  | signalingHash
  | notIterable (typeName : String)
  | notContainer (typeName : String)
  | notByteContainer
  | noLength (typeName : String)
  | notJoined (position : Nat) (typeName : String)
  | arguments (fault : ArgumentFault)
  | stated (message : String)

namespace TypeFault

/-- The wording of a fault. -/
def message : TypeFault → String
  | .notPayload typeName kind =>
    typeName ++ " is not a valid payload for a " ++ kind.name ++ " value"
  | .noKind typeName => "No backend value kind for " ++ typeName
  | .notNumber typeName =>
    "float() argument must be a string or a real number, not '" ++ typeName ++ "'"
  | .notByteSource typeName => "cannot convert '" ++ typeName ++ "' object to bytes"
  | .textWithoutEncoding => "string argument without an encoding"
  | .notByte typeName => "'" ++ typeName ++ "' object cannot be interpreted as an integer"
  | .notSerializable typeName => typeName ++ " is not JSON serializable"
  | .notEncodable typeName => "Object of type " ++ typeName ++ " is not JSON serializable"
  | .notKey typeName => "keys must be str, int, float, bool or None, not " ++ typeName
  | .notMemberName typeName => "`" ++ typeName ++ "` not valid as object key"
  | .notOrdered left right =>
    "'<' not supported between instances of '" ++ left ++ "' and '" ++ right ++ "'"
  | .mixedClocks => "can't compare offset-naive and offset-aware datetimes"
  | .clockWithDate => "can't compare datetime.datetime to datetime.date"
  | .unhashable typeName => "unhashable type: '" ++ typeName ++ "'"
  | .signalingHash => "Cannot hash a signaling NaN value"
  | .notIterable typeName => "'" ++ typeName ++ "' object is not iterable"
  | .notContainer typeName => "argument of type '" ++ typeName ++ "' is not iterable"
  | .notByteContainer => "a bytes-like object is required, not 'str'"
  | .noLength typeName => "object of type '" ++ typeName ++ "' has no len()"
  | .notJoined position typeName =>
    "sequence item " ++ toString position ++ ": expected str instance, " ++ typeName ++ " found"
  | .arguments fault => fault.message
  | .stated message => message

end TypeFault

/-- A datum of the right type with a value that an operation does not take. -/
inductive ValueFault
  | emptyKeyKind
  | emptyKeyName
  | emptySpecKind
  | pageSize
  | registryMissing
  | noOpenGroup
  | openGroups (count : Nat)
  | direction (text : String)
  | tooManyDigits (count : Nat)
  | tooLongToWrite
  | limitTooLarge
  | notDecimal (given : Datum)
  | signalingDecimal
  | negativeCount
  | notByteRange
  | stated (message : String)

namespace ValueFault

/-- The wording of a fault. -/
def message : ValueFault → String
  | .emptyKeyKind => "Key kind must not be empty"
  | .emptyKeyName => "Key name must not be empty"
  | .emptySpecKind => "kind must not be empty"
  | .pageSize => "page_size must be positive"
  | .registryMissing =>
    "registry parameter is required. Use build_default_type_registry() to create one."
  | .noOpenGroup => "No open group to close"
  | .openGroups count =>
    toString count ++ " group(s) still open; call end_group() before build()"
  | .direction text => Text.quoted text ++ " is not a valid SortDirection"
  | .tooManyDigits count => (Json.Complaint.tooManyDigits count).message
  | .tooLongToWrite =>
    "Exceeds the limit (" ++ toString Number.maxDigits ++
      " digits) for integer string conversion; use sys.set_int_max_str_digits() to increase the limit"
  | .limitTooLarge => "Stop argument for islice() must be None or an integer: 0 <= x <= sys.maxsize."
  | .notDecimal given => "could not convert string to float: " ++ given.show
  | .signalingDecimal => "cannot convert signaling NaN to float"
  | .negativeCount => "negative count"
  | .notByteRange => "bytes must be in range(0, 256)"
  | .stated message => message

end ValueFault

/-- A number or point of time beyond what an operation can hold. -/
inductive RangeFault
  | integerToDouble
  | infinityToInteger
  | dateOutOfRange
  | spanOfDays (days : Int)
  | spanTooLong
  | decimalInfinityToInteger
  | countTooLarge (typeName : String)
  | byteStringTooLarge

namespace RangeFault

/-- The wording of a fault. -/
def message : RangeFault → String
  | .integerToDouble => "int too large to convert to float"
  | .infinityToInteger => "cannot convert float infinity to integer"
  | .dateOutOfRange => "date value out of range"
  | .spanOfDays days =>
    "days=" ++ toString days ++ "; must have magnitude <= 999999999"
  | .spanTooLong => "Python int too large to convert to C int"
  | .decimalInfinityToInteger => "cannot convert Infinity to integer"
  | .countTooLarge typeName => "cannot fit '" ++ typeName ++ "' into an index-sized integer"
  | .byteStringTooLarge => "byte string is too large"

end RangeFault

/-- Why a record cannot be turned into its stored form or back; the record is named by its key. -/
inductive CodecFault
  | encode (key : String)
  | decode (key : String)
  | stated (message : String)

namespace CodecFault

/-- The wording of a fault. -/
def message : CodecFault → String
  | .encode key => "Cannot encode " ++ key
  | .decode key => "Cannot decode " ++ key
  | .stated message => message

end CodecFault

/-- The three families of errors of the document backend. -/
inductive DocumentFamily
  | storage
  | connection
  | query
  deriving DecidableEq

/-- What went wrong in the document backend. -/
inductive DocumentFault
  | unsupportedType (typeName : String)
  | malformedPath (path : Datum)
  | reservedColumns (names : List String)
  | unsupportedComparison (operator : String)
  | uncompilable (filter : String)
  | failed (action text : String)
  | notConnected
  | stated (message : String)

namespace DocumentFault

/-- The wording of a fault. -/
def message : DocumentFault → String
  | .unsupportedType typeName => "Unsupported BSON value type: " ++ typeName
  | .malformedPath path => "Malformed record path: " ++ path.show
  | .reservedColumns names =>
    "Column names clash with reserved fields: " ++
      bracketed "[" "]" (names.map Text.quoted)
  | .unsupportedComparison operator => "Unsupported comparison operator: " ++ operator
  | .uncompilable filter => "Cannot compile filter node: " ++ filter
  | .failed action text => action ++ " failed: " ++ text
  | .notConnected => "Not connected; call connect() first"
  | .stated message => message

end DocumentFault

/-- An error of the library, or one that it lets through. The path of a query error says where in a
written predicate it lies; it is null if it lies nowhere there. -/
inductive Error
  | general (message : String)
  | query (fault : QueryFault) (path : Datum)
  | unknownOperator (given : Datum) (valid : List String) (path : Datum)
  | columnType (column : String) (given : Datum)
  | codec (fault : CodecFault)
  | storage (message : String)
  | connection (message : String)
  | document (family : DocumentFamily) (fault : DocumentFault)
  | badType (fault : TypeFault)
  | badValue (fault : ValueFault)
  | outOfRange (fault : RangeFault)
  | noAttribute (typeName member : String)
  /-- Bytes that are no text. -/
  | notText (fault : Text.IllFormed)
  /-- Nothing is left to hand out. -/
  | exhausted
  /-- An error that a collaborator raised, by the name of its class. -/
  | foreign (name message : String)

namespace Error

/-- An error whose message shows data. If they cannot be written, then that is the error. -/
def showing (writable : Bool) (e : Error) : Error :=
  if writable then e else .badValue .tooLongToWrite

/-- The operators that are offered in place of an unknown one. -/
def suggestions (given : Datum) (valid : List String) : List String :=
  match given with
  | .text word => Text.Similarity.closeMatches word valid
  | _ => []

/-- Texts in their order, equal ones side by side. -/
def sortTexts (texts : List String) : List String := texts.mergeSort fun a b => a ≤ b

/-- The wording of an error. -/
def message : Error → String
  | .general message | .storage message | .connection message | .foreign _ message => message
  | .query fault _ => fault.message
  | .unknownOperator given valid _ =>
    let offered := suggestions given valid
    "Unknown operator: " ++ given.show ++ "." ++
      (if offered = [] then "" else " Did you mean: " ++ commaSeparated offered ++ "?") ++
      " Valid operators: " ++ commaSeparated (sortTexts valid)
  | .columnType column given =>
    "Cannot store " ++ given.typeName ++ " value " ++ given.show ++
      " in a column of type " ++ column
  | .codec fault => fault.message
  | .document _ fault => fault.message
  | .badType fault => fault.message
  | .badValue fault => fault.message
  | .outOfRange fault => fault.message
  | .noAttribute typeName member =>
    "'" ++ typeName ++ "' object has no attribute '" ++ member ++ "'"
  | .notText fault => fault.message
  | .exhausted => ""

/-- The name of an error's class. -/
def className : Error → String
  | .general _ => "DatastoreError"
  | .query _ _ => "QueryError"
  | .unknownOperator _ _ _ => "UnknownOperatorError"
  | .columnType _ _ => "ColumnTypeError"
  | .codec _ => "CodecError"
  | .storage _ => "StorageIOError"
  | .connection _ => "DatastoreConnectionError"
  | .document .storage _ => "MongoStorageError"
  | .document .connection _ => "MongoConnectionError"
  | .document .query _ => "MongoQueryError"
  | .badType _ => "TypeError"
  | .badValue _ => "ValueError"
  | .outOfRange _ => "OverflowError"
  | .noAttribute _ _ => "AttributeError"
  | .notText _ => "UnicodeDecodeError"
  | .exhausted => "StopIteration"
  | .foreign name _ => name

/-- The error of a class with a stated message. -/
def ofClass (name message : String) : Error :=
  match name with
  | "DatastoreError" => .general message
  | "QueryError" => .query (.stated (.text message)) .null
  | "CodecError" => .codec (.stated message)
  | "StorageIOError" => .storage message
  | "DatastoreConnectionError" => .connection message
  | "MongoStorageError" => .document .storage (.stated message)
  | "MongoConnectionError" => .document .connection (.stated message)
  | "MongoQueryError" => .document .query (.stated message)
  | "TypeError" => .badType (.stated message)
  | "ValueError" => .badValue (.stated message)
  -- A missing key is shown as a quoted text.
  | "KeyError" => .foreign name (Text.quoted message)
  | _ => .foreign name message

/-- The error of a JSON text that goes beyond what its reader can hold. -/
def ofComplaint (complaint : Json.Complaint) : Error :=
  match complaint with
  | .tooManyDigits count => .badValue (.tooManyDigits count)
  | complaint => .foreign "RecursionError" complaint.message

/-- The dictionary that an error of this library describes itself by; foreign errors have none. -/
def description? (e : Error) : Option Datum :=
  let texts (items : List String) : Datum := .list (items.map .text)
  match e with
  | .query fault path =>
    some (.ofFields [("error", .text "QUERY_ERROR"), ("message", fault.told), ("path", path)])
  | .unknownOperator given valid path =>
    some (.ofFields [("error", .text "UNKNOWN_OPERATOR"), ("operator", .text given.display),
      ("suggestions", texts (suggestions given valid)),
      ("valid_operators", texts (sortTexts valid)), ("path", path)])
  | .columnType column given =>
    some (.ofFields [("error", .text "COLUMN_TYPE_ERROR"), ("column_type", .text column),
      ("value_type", .text given.typeName)])
  | .general _ | .codec _ | .storage _ | .connection _ | .document _ _ =>
    some (.ofFields [("error", .text e.className), ("message", .text e.message)])
  | _ => none

/-- Whether the error says that nothing is left, whoever raised it. -/
def endsIteration (e : Error) : Bool := e.className = exhausted.className

/-- Whether the error says that a query is malformed. -/
def isQueryError : Error → Bool
  | .query _ _ | .unknownOperator _ _ _ | .columnType _ _ => true
  | _ => false

end Error

namespace Datum

mutual

/-- Refuses a datum that tables cannot be looked up by: one that can be changed, a decimal that
signals, or a tuple with such a part. -/
def checkHashable (d : Datum) : Except Error Unit :=
  match d with
  | .list _ | .dict _ | .set _ | .buffer _ | .model _ _ _ =>
    .error (.badType (.unhashable d.typeName))
  | .decimal s =>
    if Number.isSignaling s then .error (.badType .signalingHash) else .ok ()
  | .tuple items => checkAllHashable items
  | _ => .ok ()

/-- Refuses the first of some data that tables cannot be looked up by. -/
def checkAllHashable : List Datum → Except Error Unit
  | [] => .ok ()
  | item :: items => do
    checkHashable item
    checkAllHashable items

end

/-- The bare form of a datum; one that cannot be written is refused. -/
def written (d : Datum) : Except Error String :=
  match d.display? with
  | some bare => .ok bare
  | none => .error (.badValue .tooLongToWrite)

/-- The name that a datum is where names are looked up; other data are no name, and must be fit to
be looked up. -/
def name? (d : Datum) : Except Error (Option String) :=
  match d with
  | .text name => .ok (some name)
  | _ => d.checkHashable.map fun _ => none

end Datum

end RecordStore
