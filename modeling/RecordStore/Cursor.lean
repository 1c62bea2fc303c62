import RecordStore.CanonicalJson
import RecordStore.Text.Base64

/-!
# Continuation cursors

A cursor is an opaque text that says where a query goes on: an offset, in a JSON object, in base 64.
Reading takes every cursor that writing produces; of anything else it takes what still decodes to
such an object.
-/

namespace RecordStore.Cursor

/-- The cursor that holds a JSON value. -/
def ofJson (offset : Json) : String :=
  String.ofList (Text.Base64.encode (Text.utf8 (Json.writeAscii (.object [("o", offset)]))))

/-- The cursor of an offset. -/
def ofOffset (offset : Nat) : String := ofJson (.integer offset)

/-- The bytes in a cursor. -/
def bytes? (cursor : String) : Option Bytes :=
  if cursor.toList.any fun c => 128 ≤ c.toNat then none
  else Text.Base64.decode? false (cursor.toList.map Text.Base64.common)

/-- The offset in the object that a JSON text writes; a text that lies too deep for the stack is an
error of its own. -/
def offsetOfText? (levels : Nat) (text : String) : Except Error (Option Nat) :=
  match Json.read text levels with
  | .ok json =>
    .ok ((json.get? "o").bind fun offset =>
      offset.integer?.bind fun n => if 0 ≤ n then some n.toNat else none)
  | .error failure =>
    match failure.complaint with
    -- Other complaints only show that it is no cursor.
    | .tooDeep _ => .error (.ofComplaint failure.complaint)
    | _ => .ok none

/-- The offset in a cursor. -/
def offset? (levels : Nat) (cursor : String) : Except Error (Option Nat) :=
  match (bytes? cursor).bind Text.decodeMarked? with
  | some text => offsetOfText? levels text
  | none => .ok none

/-- The offset that a cursor points at, on a stack with room for so many levels; no cursor points at
the start. -/
def toOffset (cursor : Option String) (levels : Nat := Json.usualLevels) : Except Error Nat :=
  match cursor with
  | none => .ok 0
  | some text => do
    match ← offset? levels text with
    | some n => return n
    | none => .error (.query (.malformedCursor text) .null)

end RecordStore.Cursor
