import RecordStore.ColumnType
import RecordStore.Datum.Part
import RecordStore.Record

/-!
# Record layouts

A `Layout` says how records of one type are stored: their kind, how an identifier becomes a key, and
which fields become typed columns. A layout with lifecycle columns begins with the two flags that
mark a record as archived or deleted.
-/

namespace RecordStore

namespace Datum

/-- The name of a record with this identifier. -/
def keyName (id : Datum) : Except Error String := do
  let name ← match id with
    | .text s | .uuid s => pure s
    | .integer _ | .long _ => id.written
    | .dict _ | .model _ _ _ => id.canonicalJson
    | _ => .error (.query (.unsupportedIdentifier id.typeName) .null)
  if name = "" then .error (.query .emptyIdentifier .null) else return name

end Datum

/-- An indexed column: its name, its type, and how its value is taken from a record. -/
structure Column where
  name : String
  type : ColumnType
  read : Datum → Datum

namespace Column

/-- A column that holds the field of a dotted path. -/
def ofField (name : String) (type : ColumnType) (path : String) : Column :=
  ⟨name, type, fun record => record.resolve path⟩

/-- A column that says whether a field counts as true. -/
def flag (name : String) : Column :=
  ⟨name, .boolean, fun record => .boolean (record.resolve name).isTruthy⟩

end Column

/-- The column that marks a record as archived. -/
def archivedColumn : String := "archived"

/-- The column that marks a record as deleted. -/
def deletedColumn : String := "deleted"

/-- How records of one type are stored. -/
structure Layout where
  kind : String
  columns : List Column
  idField : String
  parent : Option Key
  kind_ne_empty : kind ≠ ""

namespace Layout

/-- Adds a column; one of the same name is replaced where it stands. -/
def putColumn (columns : List Column) (c : Column) : List Column :=
  match columns with
  | [] => [c]
  | old :: rest => if old.name = c.name then c :: rest else old :: putColumn rest c

/-- The layout of a kind; a later column replaces an earlier one of the same name. -/
def make (kind : String) (columns : List Column) (idField : String) (parent : Option Key)
    (lifecycle : Bool) : Except Error Layout :=
  if h : kind = "" then .error (.badValue .emptySpecKind)
  else
    let flags := if lifecycle then [Column.flag archivedColumn, Column.flag deletedColumn] else []
    .ok ⟨kind, (flags ++ columns).foldl putColumn [], idField, parent, h⟩

/-- The column of a name. -/
def column? (l : Layout) (name : String) : Option Column := l.columns.find? fun c => c.name = name

/-- The type that a column is declared with. -/
def columnType? (l : Layout) (name : String) : Option ColumnType := (l.column? name).map Column.type

/-- Whether both lifecycle columns exist, declared ones included. -/
def hasLifecycle (l : Layout) : Bool :=
  (l.column? archivedColumn).isSome && (l.column? deletedColumn).isSome

/-- The identifier of a record, null if it has none. -/
def idOf (l : Layout) (record : Datum) : Datum := record.resolve l.idField

/-- The key of the record with this identifier. -/
def keyOf (l : Layout) (id : Datum) : Except Error Key := do
  Key.under l.parent (.string l.kind) (.string (← id.keyName))

end Layout

end RecordStore
