import RecordStore.Json.Basic

/-!
# Equality of JSON values

Whether two JSON values are one and the same, decided member by member. Objects that differ in the
order of their members differ.
-/

namespace RecordStore.Json

/-- Two lists are equal if their first elements and the rests are. -/
def decideCons {α : Type} {a b : α} {as bs : List α} :
    Decidable (a = b) → Decidable (as = bs) → Decidable (a :: as = b :: bs)
  | .isTrue h, .isTrue hs => .isTrue (by rw [h, hs])
  | .isFalse h, _ => .isFalse fun e => h (List.cons.inj e).1
  | _, .isFalse hs => .isFalse fun e => hs (List.cons.inj e).2

/-- Two members are equal if their names and their values are. -/
def decideMember {name other : String} {a b : Json} :
    Decidable (a = b) → Decidable ((name, a) = (other, b))
  | .isTrue h => if hn : name = other then .isTrue (by rw [h, hn]) else .isFalse fun e => hn (Prod.mk.inj e).1
  | .isFalse h => .isFalse fun e => h (Prod.mk.inj e).2

mutual

/-- Whether two values are equal: they are of one sort, and so are their parts in their order. -/
def decideEq (a b : Json) : Decidable (a = b) :=
  match a with
  | .null =>
    match b with
    | .null => .isTrue rfl
    | .boolean _ | .integer _ | .double _ | .string _ | .array _ | .object _ => .isFalse nofun
  | .boolean x =>
    match b with
    | .boolean y => if h : x = y then .isTrue (by rw [h]) else .isFalse fun e => h (boolean.inj e)
    | .null | .integer _ | .double _ | .string _ | .array _ | .object _ => .isFalse nofun
  | .integer x =>
    match b with
    | .integer y => if h : x = y then .isTrue (by rw [h]) else .isFalse fun e => h (integer.inj e)
    | .null | .boolean _ | .double _ | .string _ | .array _ | .object _ => .isFalse nofun
  | .double x =>
    match b with
    | .double y => if h : x = y then .isTrue (by rw [h]) else .isFalse fun e => h (double.inj e)
    | .null | .boolean _ | .integer _ | .string _ | .array _ | .object _ => .isFalse nofun
  | .string x =>
    match b with
    | .string y => if h : x = y then .isTrue (by rw [h]) else .isFalse fun e => h (string.inj e)
    | .null | .boolean _ | .integer _ | .double _ | .array _ | .object _ => .isFalse nofun
  | .array xs =>
    match b with
    | .array ys =>
      match decideItems xs ys with
      | .isTrue h => .isTrue (by rw [h])
      | .isFalse h => .isFalse fun e => h (array.inj e)
    | .null | .boolean _ | .integer _ | .double _ | .string _ | .object _ => .isFalse nofun
  | .object xs =>
    match b with
    | .object ys =>
      match decideMembers xs ys with
      | .isTrue h => .isTrue (by rw [h])
      | .isFalse h => .isFalse fun e => h (object.inj e)
    | .null | .boolean _ | .integer _ | .double _ | .string _ | .array _ => .isFalse nofun

/-- Whether two arrays have equal items. -/
def decideItems : (xs ys : List Json) → Decidable (xs = ys)
  | [], [] => .isTrue rfl
  | [], _ :: _ | _ :: _, [] => .isFalse nofun
  | x :: xs, y :: ys => decideCons (decideEq x y) (decideItems xs ys)

/-- Whether two objects have equal members in the same order. -/
def decideMembers : (xs ys : List (String × Json)) → Decidable (xs = ys)
  | [], [] => .isTrue rfl
  | [], _ :: _ | _ :: _, [] => .isFalse nofun
  | (_, x) :: xs, (_, y) :: ys => decideCons (decideMember (decideEq x y)) (decideMembers xs ys)

end

instance : DecidableEq Json := decideEq

end RecordStore.Json
