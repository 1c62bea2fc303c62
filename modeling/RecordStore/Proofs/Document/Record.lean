import Mathlib.Algebra.Group.Int.Defs
import Mathlib.Data.List.Nodup
import RecordStore.Document.Record
import RecordStore.Proofs.Calendar.Ordinal
import RecordStore.Proofs.Result
import RecordStore.Proofs.Value

/-!
# Records and their documents

A record can be written as a document unless one of its columns has the name of a reserved field,
and the document read back is the record (`Record.toRecord_toDocument`). The key is built up again
from its path, link by link; the whole numbers of a document are told apart by the list of the
columns that hold timestamps; and of the two forms of integers and of blobs the plain one comes
back, in which a blob differs from the one that was marked as binary.
-/

namespace RecordStore

/-! ## Keys -/

namespace Datum

mutual

/-- The datum of a JSON value has that JSON form. -/
theorem toPlainJson_ofJson : ∀ value : Json, (ofJson value).toPlainJson = .ok value
  | .null | .boolean _ | .integer _ | .double _ | .string _ => rfl
  | .array items => by
    rw [ofJson, toPlainJson, plainItems_ofItems items]
    rfl
  | .object members => by
    rw [ofJson, toPlainJson, plainEntries_ofMembers members]
    rfl

theorem plainItems_ofItems : ∀ items : List Json, plainItems (ofItems items) = .ok items
  | [] => rfl
  | item :: items => by
    rw [ofItems, plainItems, toPlainJson_ofJson item, plainItems_ofItems items]
    rfl

theorem plainEntries_ofMembers :
    ∀ members : List (String × Json), plainEntries (ofMembers members) = .ok members
  | [] => rfl
  | (name, item) :: members => by
    rw [ofMembers, plainEntries, toPlainJson_ofJson item, plainEntries_ofMembers members]
    rfl

end

end Datum

namespace Key

/-- A link is read from its pair of a kind and a name. -/
theorem pairOf?_link (s : Step) :
    pairOf? (.list [.ofJson s.kind, .ofJson s.name]) = some (.ofJson s.kind, .ofJson s.name) := by
  have hkind : (Datum.ofJson s.kind).isTruthy = true := s.kind_truthy
  have hname : (Datum.ofJson s.name).isTruthy = true := s.name_truthy
  simp only [pairOf?, Datum.elements, hkind, hname, Bool.and_self, if_true]

theorem labels_link (s : Step) :
    labels (.ofJson s.kind, .ofJson s.name) = .ok (s.kind, s.name) := by
  rw [labels, Datum.toPlainJson_ofJson, Datum.toPlainJson_ofJson]
  rfl

theorem make_link (s : Step) : Step.make s.kind s.name = .ok s := by
  rw [Step.make, dif_pos s.kind_truthy, dif_pos s.name_truthy]

/-- The key of some links, the lowest one first. -/
def ofLinks? : List Step → Option Key
  | [] => none
  | own :: above => some ⟨own, above⟩

/-- The link of a key is read as the key. -/
theorem under_link (above : List Step) (own : Step) :
    under (ofLinks? above) own.kind own.name = .ok ⟨own, above⟩ := by
  rw [under.eq_def, make_link]
  cases above <;> rfl

/-- Going down a path gives the key of its links. -/
theorem ofPath_reverse (links : List Step) :
    ofPath (links.reverse.map fun s => (s.kind, s.name)) = .ok (ofLinks? links) := by
  induction links with
  | nil => rfl
  | cons own above ih =>
    rw [ofPath] at ih
    -- A path is read from the top, so the lowest link comes last and stands over all others.
    rw [List.reverse_cons, List.map_append, ofPath, List.foldlM_append, ih]
    simp only [List.map_cons, List.map_nil, List.foldlM_cons, List.foldlM_nil, bind_pure]
    change some <$> under (ofLinks? above) own.kind own.name = _
    rw [under_link]
    rfl

/-- A key is found from its stored path. -/
theorem ofPathDatum_pathDatum (k : Key) : ofPathDatum k.pathDatum = .ok k := by
  have hpairs : (k.path.map fun s => Datum.list [.ofJson s.kind, .ofJson s.name]).mapM pairOf? =
      some (k.path.map fun s => (Datum.ofJson s.kind, Datum.ofJson s.name)) := by
    rw [List.mapM_map]
    simp only [Function.comp_def, pairOf?_link]
    exact List.mapM_pure
  have hlabels : (k.path.map fun s => (Datum.ofJson s.kind, Datum.ofJson s.name)).mapM labels =
      .ok (k.path.map fun s => (s.kind, s.name)) := by
    rw [Result.mapM_eq_ok_iff_map, List.map_map, List.map_map]
    exact List.map_congr_left fun s _ => labels_link s
  have hkey : ofPath (k.path.map fun s => (s.kind, s.name)) = .ok (some k) :=
    ofPath_reverse (k.own :: k.above)
  rw [ofPathDatum, pathDatum]
  simp only [Datum.elements, Except.toOption, Option.bind_some, hpairs]
  exact Result.bind_eq_ok.mpr ⟨_, hlabels, Result.bind_eq_ok.mpr ⟨_, hkey, rfl⟩⟩

end Key

/-! ## Values -/

namespace Value

/-- A timestamp of universal time is found from its microseconds. -/
theorem ofMicros_micros {m : Moment} (h : m.clock = .universal) :
    ofMicros m.micros = .ok (.timestamp m) := by
  have hday : m.micros / (Calendar.microsPerDay : Int) =
      (m.reading.date.ordinal : Int) - DateTime.epochDay := by
    rw [Moment.micros_of_universal h, DateTime.micros_div]
  have hbounds := m.reading.date.ordinal_bounds
  have hepoch : DateTime.epochDay = 719163 := rfl
  -- No day of the calendar comes near the limits of a span of time.
  rw [ofMicros]
  simp only [hday]
  rw [if_neg, if_neg, Moment.ofMicros?_micros h]
  · omega
  · simp only [isWordOfDays, Bool.not_eq_true', Bool.and_eq_false_iff, decide_eq_false_iff_not]
    omega

/-- The field of a value is read as the plain form of the value, if timestamps are noted. -/
theorem ofField_toField {v : Value} (h : ∀ m, v = .timestamp m → m.clock = .universal) :
    ofField (v.kind = .timestamp) v.toField = .ok v.plain := by
  cases v with
  | timestamp m => exact ofMicros_micros (h m rfl)
  | null | boolean _ | integer _ | long _ | double _ | string _ | blob _ | binary _ => rfl

end Value

/-! ## Records -/

namespace Record

variable {r : Record}

/-- What the records of a store meet: each column has a name of its own, and timestamps are read on
a clock of universal time. -/
structure WellFormed (r : Record) : Prop where
  names : (Assoc.keys r.columns).Nodup
  universal : ∀ column ∈ r.columns, ∀ m, column.2 = .timestamp m → m.clock = .universal

/-- The record with the plain forms of its values. -/
def plain (r : Record) : Record :=
  { r with columns := r.columns.map fun column => (column.1, column.2.plain) }

/-- Only a record with a value that was marked as binary data differs from its plain form. -/
theorem same_plain (h : r.WellFormed) (hbinary : ∀ column ∈ r.columns, ∀ b, column.2 ≠ .binary b) :
    r.same r.plain = true := by
  have hlength : r.columns.length = r.plain.columns.length := (List.length_map _).symm
  have hcolumns : sameColumns r.columns r.plain.columns = true := by
    rw [sameColumns, decide_eq_true hlength, Bool.true_and, List.all_eq_true]
    rintro ⟨name, v⟩ hcolumn
    have hread : Assoc.get? name r.plain.columns = some v.plain := by
      rw [plain, Assoc.get?_map, Assoc.get?_of_mem h.names hcolumn]
      rfl
    simpa only [hread, Option.any_some] using Value.same_plain (hbinary (name, v) hcolumn)
  rw [same, hcolumns, plain, decide_eq_true rfl, decide_eq_true rfl]
  rfl

/-- The fields that hold the columns. -/
def columnFields (r : Record) : Document := r.columns.map fun column => (column.1, column.2.toField)

/-- The reserved columns of a record are its columns with reserved names. -/
theorem mem_reservedColumns {name : String} :
    name ∈ r.reservedColumns ↔ name ∈ Assoc.keys r.columns ∧ Document.isReserved name = true := by
  rw [reservedColumns, Error.sortTexts, List.mem_mergeSort, List.mem_filter]

/-- A record is refused for the columns that have the names of reserved fields, and for nothing
else. -/
theorem toDocument_eq :
    r.toDocument =
      if ∃ name ∈ Assoc.keys r.columns, Document.isReserved name = true then
        .error (.document .storage (.reservedColumns r.reservedColumns))
      else .ok (r.reservedFields ++ r.columnFields) := by
  rw [toDocument]
  split
  · next hnone =>
    rw [if_neg, columnFields]
    rintro ⟨name, hname⟩
    have hmem := mem_reservedColumns.mpr hname
    rw [hnone] at hmem
    cases hmem
  · next hclash =>
    obtain ⟨name, hmem⟩ := List.exists_mem_of_ne_nil _ hclash
    rw [if_pos ⟨name, mem_reservedColumns.mp hmem⟩]

/-- The list of timestamps names a column exactly when it holds one. -/
theorem contains_timestampColumns (h : r.WellFormed) {column : String × Value}
    (hcolumn : column ∈ r.columns) :
    r.timestampColumns.contains column.1 = decide (column.2.kind = .timestamp) := by
  rw [Bool.eq_iff_iff, List.contains_iff_mem, decide_eq_true_iff, timestampColumns, Error.sortTexts,
    List.mem_mergeSort, List.mem_map]
  constructor
  · rintro ⟨other, hother, hname⟩
    rw [List.mem_filter, decide_eq_true_iff] at hother
    -- Names are distinct, so the column that was noted under this name is the column itself.
    obtain rfl := List.inj_on_of_nodup_map h.names hother.1 hcolumn hname
    exact hother.2
  · intro hkind
    exact ⟨column, List.mem_filter.mpr ⟨hcolumn, decide_eq_true hkind⟩, rfl⟩

end Record

namespace Document

open Record

variable {r : Record} {fields : Document}

/-- The names of timestamps are read as they were noted. -/
theorem timestamps_reserved : timestamps (r.reservedFields ++ fields) = .ok r.timestampColumns := by
  -- The columns of timestamps are noted in a field of their own.
  have hnoted : field (r.reservedFields ++ fields) timestampsField =
      .list (r.timestampColumns.map .text) := rfl
  rw [timestamps]
  simp only [hnoted]
  cases r.timestampColumns with
  | nil => rfl
  | cons name names =>
    have hnames : ((name :: names).map Datum.text).mapM Datum.name? =
        .ok ((name :: names).map some) := by
      rw [Result.mapM_eq_ok_iff_map, List.map_map, List.map_map]
      rfl
    rw [if_pos (by rfl)]
    refine Result.bind_eq_ok.mpr ⟨_, rfl, Result.bind_eq_ok.mpr ⟨_, hnames, ?_⟩⟩
    rw [List.filterMap_map]
    exact congrArg Except.ok List.filterMap_some

/-- The payload is read as it was written, also when there is none. -/
theorem payload_reserved : payload (r.reservedFields ++ fields) = .ok r.payload := by
  have hpayload : field (r.reservedFields ++ fields) payloadField = .binary r.payload := rfl
  rw [payload]
  simp only [hpayload]
  cases r.payload <;> rfl

/-- The columns are read as they were written, in their plain forms. -/
theorem columns_reserved (h : r.WellFormed)
    (hunreserved : ∀ name ∈ Assoc.keys r.columns, ¬ isReserved name = true) :
    columns r.timestampColumns (r.reservedFields ++ r.columnFields) = .ok r.plain.columns := by
  -- Reading leaves out the reserved fields, all of them and no column.
  have hreserved : r.reservedFields.filter (fun field => !isReserved field.1) = [] := rfl
  have hfields : r.columnFields.filter (fun field => !isReserved field.1) = r.columnFields := by
    rw [List.filter_eq_self, columnFields]
    rintro field hfield
    obtain ⟨column, hcolumn, rfl⟩ := List.mem_map.mp hfield
    simpa using hunreserved column.1 (List.mem_map_of_mem hcolumn)
  rw [columns, List.filter_append, hreserved, hfields, List.nil_append, Result.mapM_eq_ok_iff_map,
    columnFields, plain, List.map_map, List.map_map]
  refine List.map_congr_left fun column hcolumn => ?_
  refine Result.bind_eq_ok.mpr ⟨column.2.plain, ?_, rfl⟩
  rw [contains_timestampColumns h hcolumn]
  exact Value.ofField_toField (h.universal column hcolumn)

/-- The document of a record without reserved columns is read as the record. -/
theorem toRecord_reserved (h : r.WellFormed)
    (hunreserved : ∀ name ∈ Assoc.keys r.columns, ¬ isReserved name = true) :
    toRecord (r.reservedFields ++ r.columnFields) = .ok r.plain := by
  refine Result.bind_eq_ok.mpr ⟨_, timestamps_reserved, ?_⟩
  refine Result.bind_eq_ok.mpr ⟨_, columns_reserved h hunreserved, ?_⟩
  refine Result.bind_eq_ok.mpr ⟨_, r.key.ofPathDatum_pathDatum, ?_⟩
  exact Result.bind_eq_ok.mpr ⟨_, payload_reserved, rfl⟩

end Document

namespace Record

/-- What a record meets that can be written as a document: it is well formed, and no column has the
name of a reserved field. -/
structure Storable (r : Record) : Prop extends r.WellFormed where
  unreserved : ∀ name ∈ Assoc.keys r.columns, ¬ Document.isReserved name = true

/-- The document of a storable record. -/
def document (r : Record) : Document := r.reservedFields ++ r.columnFields

/-- A record with one column is storable, unless that has the name of a reserved field or an instant
that is read on another clock. -/
theorem storable_singleton (key : Key) {name : String} {value : Value}
    (hname : ¬ Document.isReserved name = true)
    (hclock : ∀ m, value = .timestamp m → m.clock = .universal) :
    (⟨key, [(name, value)], []⟩ : Record).Storable where
  names := List.nodup_singleton name
  universal := List.forall_mem_singleton.mpr hclock
  unreserved := List.forall_mem_singleton.mpr hname

/-- A record that can be stored has its document. -/
theorem Storable.toDocument_eq {r : Record} (h : r.Storable) : r.toDocument = .ok r.document := by
  rw [Record.toDocument_eq, if_neg]
  · rfl
  · rintro ⟨name, hname, hreserved⟩
    exact h.unreserved name hname hreserved

/-- A record that can be stored is read from its document. -/
theorem Storable.toRecord_document {r : Record} (h : r.Storable) :
    r.document.toRecord = .ok r.plain :=
  Document.toRecord_reserved h.toWellFormed h.unreserved

theorem get?_id_document (r : Record) :
    Assoc.get? Document.idField r.document = some (.text r.key.toText) := rfl

/-- A record is refused exactly for a column that has the name of a reserved field. Otherwise its
document is read back as a record with the same key, payload and column names, in which each value
is the plain form of the one that was written; it is the same record unless a blob was marked as
binary data. -/
theorem toRecord_toDocument (r : Record) (h : r.WellFormed) :
    ((∃ e, r.toDocument = .error e ∧ e.className = "MongoStorageError") ↔
        ∃ name ∈ Assoc.keys r.columns, Document.isReserved name = true) ∧
      ((∀ name ∈ Assoc.keys r.columns, ¬ Document.isReserved name = true) →
        ∃ doc back, r.toDocument = .ok doc ∧ doc.toRecord = .ok back ∧
          back.key = r.key ∧ back.payload = r.payload ∧
          back.columns = r.columns.map (fun column => (column.1, column.2.plain)) ∧
          (∀ column ∈ r.columns,
            column.2.plain.kind = column.2.kind ∧ column.2.plain.compare column.2 = .eq) ∧
          ((∀ column ∈ r.columns, ∀ b, column.2 ≠ .binary b) → r.same back = true)) := by
  rw [toDocument_eq]
  refine ⟨⟨?_, fun hclash => ?_⟩, fun hunreserved => ?_⟩
  · rintro ⟨e, he, -⟩
    by_contra hclash
    rw [if_neg hclash] at he
    cases he
  · rw [if_pos hclash]
    exact ⟨_, rfl, rfl⟩
  · have hclash : ¬ ∃ name ∈ Assoc.keys r.columns, Document.isReserved name = true :=
      fun ⟨name, hname, hreserved⟩ => hunreserved name hname hreserved
    rw [if_neg hclash]
    exact ⟨_, r.plain, rfl, Document.toRecord_reserved h hunreserved, rfl, rfl, rfl,
      fun column _ => ⟨column.2.kind_plain, column.2.compare_plain⟩, same_plain h⟩

/-- An instant on a leap day. -/
def leapDay : Moment := ⟨⟨⟨2024, 2, 29, by decide⟩, ⟨1, by decide⟩⟩, .universal⟩

/-- A record with values of all kinds below two other keys, and without a payload. -/
def everyKind : Record where
  key := ⟨⟨.string "Task", .string "a/b:c", rfl, rfl⟩,
    [⟨.string "List", .string "l", rfl, rfl⟩, ⟨.string "Project", .string "p1", rfl, rfl⟩]⟩
  columns := [("none", .null), ("flag", .boolean true), ("n", .integer (-2 ^ 70)), ("m", .long 3),
    ("x", .double .zero), ("at", .timestamp leapDay), ("s", .string "hi"), ("b", .blob [0, 1])]
  payload := []

theorem toRecord_toDocument_everyKind :
    ∃ doc back, everyKind.toDocument = .ok doc ∧ doc.toRecord = .ok back ∧
      everyKind.same back = true := by
  obtain ⟨-, hback⟩ := toRecord_toDocument everyKind ⟨by decide, by simp [everyKind, leapDay]⟩
  obtain ⟨doc, back, hdoc, hrecord, -, -, -, -, hsame⟩ := hback (by decide)
  exact ⟨doc, back, hdoc, hrecord, hsame (by simp [everyKind])⟩

/-- A record with a blob that is marked as binary data. -/
def marked : Record where
  key := ⟨⟨.string "Row", .string "a", rfl, rfl⟩, []⟩
  columns := [("b", .binary [1])]
  payload := []

/-- A blob that was marked as binary data comes back as other bytes of the same content. -/
theorem toRecord_of_marked :
    marked.WellFormed ∧ (∀ name ∈ Assoc.keys marked.columns, ¬ Document.isReserved name = true) ∧
      ∃ doc back, marked.toDocument = .ok doc ∧ doc.toRecord = .ok back ∧
        back.columns = [("b", .blob [1])] ∧ marked.same back = false := by
  have hformed : marked.WellFormed := ⟨by decide, by simp [marked]⟩
  have hunreserved : ∀ name ∈ Assoc.keys marked.columns, ¬ Document.isReserved name = true := by
    decide
  refine ⟨hformed, hunreserved, _, _, ?_, Document.toRecord_reserved hformed hunreserved, rfl, rfl⟩
  rw [toDocument_eq, if_neg (by decide)]

end Record

end RecordStore
