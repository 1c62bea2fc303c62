import RecordStore.Proofs.Filter.Folding
import RecordStore.Proofs.Predicate.Grammar
import RecordStore.Proofs.Storage.Restoring

/-!
# Lifecycle

The layout of a kind begins with two flags that say whether a record is archived or deleted, unless it
declares such columns itself. Whatever is written has them (`Model.isActive_of_encode`), and a query
whose root has no parts selects the active records only, by either strategy
(`Reader.answer_lifecycle`). Everywhere else the flags are columns like any other: a query that does not
name them does not notice them. The main statement is `Model.readAll_lifecycle`.
-/

namespace RecordStore

/-- Whether neither flag of a record counts as true. A field that the record does not have does not. -/
def Datum.isActive (d : Datum) : Bool :=
  !(d.resolve archivedColumn).isTruthy && !(d.resolve deletedColumn).isTruthy

namespace Record

/-- Whether a stored record has both flags, and neither is set. -/
def isActive (r : Record) : Bool :=
  Assoc.get? archivedColumn r.columns = some (.boolean false) &&
    Assoc.get? deletedColumn r.columns = some (.boolean false)

/-- A stored record that differs from another one in its flags at most. -/
structure SameButFlags (r other : Record) : Prop where
  key : other.key = r.key
  payload : other.payload = r.payload
  columns : ∀ name, name ≠ archivedColumn → name ≠ deletedColumn →
    Assoc.get? name other.columns = Assoc.get? name r.columns

end Record

/-! ## Writing the flags -/

namespace Layout

/-- The flags are columns of a layout with lifecycle that does not declare columns of their names. -/
theorem column?_make {kind idField : String} {columns : List Column} {parent : Option Key} {l : Layout}
    (h : make kind columns idField parent true = .ok l)
    (hdeclared : ∀ c ∈ columns, c.name ≠ archivedColumn ∧ c.name ≠ deletedColumn) :
    l.column? archivedColumn = some (.flag archivedColumn) ∧
      l.column? deletedColumn = some (.flag deletedColumn) := by
  rw [make] at h
  split at h
  · cases h
  · obtain rfl := Except.ok.inj h
    -- The flags come first, and no declared column takes the place of one.
    rw [column?_eq_get?, column?_eq_get?]
    simp only [if_true, List.foldl_append]
    rw [get?_named_foldl fun c hc => (hdeclared c hc).1, get?_named_foldl fun c hc => (hdeclared c hc).2]
    exact ⟨rfl, rfl⟩

end Layout

namespace Model

variable {registry : Registry} {layout : Layout}

/-- A flag is written as whether the field counts as true. -/
theorem get?_flag {name : String} (hcolumn : layout.column? name = some (.flag name))
    (hboolean : registry.get? .boolean = some ColumnType.toBoolean) {d : Datum} {r : Record}
    (h : encode registry layout d = .ok r) :
    Assoc.get? name r.columns = some (.boolean (d.resolve name).isTruthy) := by
  obtain ⟨v, hv, hget⟩ := get?_of_encode h hcolumn
  have hwritten : registry.toValue (.boolean (d.resolve name).isTruthy) (some .boolean) =
      .ok (.boolean (d.resolve name).isTruthy) := by
    simp only [Registry.toValue, hboolean]
    rfl
  obtain rfl := Except.ok.inj (hv.symm.trans hwritten)
  exact hget

/-- The stored form of an instance is active exactly if the instance is. -/
theorem isActive_of_encode (harchived : layout.column? archivedColumn = some (.flag archivedColumn))
    (hdeleted : layout.column? deletedColumn = some (.flag deletedColumn))
    (hboolean : registry.get? .boolean = some ColumnType.toBoolean) {d : Datum} {r : Record}
    (h : encode registry layout d = .ok r) : r.isActive = d.isActive := by
  rw [Record.isActive, Datum.isActive, get?_flag harchived hboolean h, get?_flag hdeleted hboolean h]
  cases (d.resolve archivedColumn).isTruthy <;> cases (d.resolve deletedColumn).isTruthy <;> rfl

end Model

/-! ## Asking for the flags -/

/-- Only an unset flag equals an unset flag. -/
theorem Value.compare_unset {v : Value} : v.compare (.boolean false) = .eq ↔ v = .boolean false := by
  cases v with
  | boolean b => cases b <;> decide
  | _ => exact iff_of_false nofun nofun

/-- The condition that a flag is not set. -/
def Condition.unset (name : String) : Condition := ⟨.text name, .equal, .boolean false⟩

/-- A flag is not set on the records that have it unset; one that is missing says nothing. -/
theorem Condition.evaluate_unset {c : Conversion} {name : String}
    (h : c.convert (unset name) = .ok (.boolean false)) (r : Record) :
    (unset name).evaluate c r = .ok (Assoc.get? name r.columns = some (.boolean false)) := by
  have hfind : r.find? (.text name) = .ok (Assoc.get? name r.columns) := rfl
  rw [evaluate, show (unset name).column = .text name from rfl, hfind]
  cases Assoc.get? name r.columns with
  | none => rfl
  | some v =>
    have hholds : Comparison.equal.holds (v.compare (.boolean false)) =
        decide (some v = some (.boolean false)) := by
      simp only [Option.some_inj, ← Value.compare_unset]
      rfl
    change (do return Comparison.equal.holds (v.compare (← c.convert (unset name)))) = _
    rw [h, ← hholds]
    rfl

namespace Reader

variable {α : Type} {reader : Reader α} {store : Store}

/-- A condition on an unset flag is converted as it is, if the flag is a column of the layout. -/
theorem convert_unset {name : String} (hcolumn : reader.layout.column? name = some (.flag name))
    (hboolean : reader.registry.get? .boolean = some ColumnType.toBoolean) :
    reader.conversion.convert (.unset name) = .ok (.boolean false) := by
  have htype : reader.conversion.columnType? name = some .boolean := by
    change (reader.layout.column? name).map Column.type = some .boolean
    rw [hcolumn]
    rfl
  change reader.registry.toValue (.boolean false) (reader.conversion.columnType? name) = _
  rw [htype]
  simp only [Registry.toValue, hboolean]
  rfl

/-- The predicate of active records selects those, by either strategy. -/
theorem answer_lifecycle (harchived : reader.conversion.convert (.unset archivedColumn) = .ok (.boolean false))
    (hdeleted : reader.conversion.convert (.unset deletedColumn) = .ok (.boolean false))
    (query : RecordQuery) :
    reader.answer store ⟨query, Codec.lifecycleFilter⟩ = (reader.candidates store query).bind fun found =>
      upToLimit query (Record.sortBy query.orderBy (found.filter Record.isActive)) := by
  have hevaluate (r : Record) :
      Codec.lifecycleFilter.evaluate reader.conversion r = .ok r.isActive := by
    change settle false [(Condition.unset archivedColumn).evaluate reader.conversion r,
      (Condition.unset deletedColumn).evaluate reader.conversion r] = _
    rw [Condition.evaluate_unset harchived, Condition.evaluate_unset hdeleted, Record.isActive]
    exact (settle_false_map_ok [_, _]).trans (by simp)
  have hknown : Codec.lifecycleFilter.Known := .node (by simp) (List.forall_mem_nil _)
  have hvalues : ∀ condition ∈ Codec.lifecycleFilter.allConditions,
      ∃ v, reader.conversion.convert condition = .ok v :=
    List.forall_mem_cons.mpr ⟨⟨_, harchived⟩, List.forall_mem_singleton.mpr ⟨_, hdeleted⟩⟩
  -- Neither strategy refuses the predicate: it is not deep, and its values are booleans.
  have hadmitted : reader.checkPredicate ⟨query, Codec.lifecycleFilter⟩ = .ok () := by
    obtain ⟨f, hf⟩ := Filter.exists_ofNode hknown hvalues
    rw [checkPredicate, Filter.ofPredicate_eq_ok.mpr (.inr ⟨rfl, rfl, hf⟩)]
    split <;> rfl
  have hchosen (found : List Record) :
      reader.chosen ⟨query, Codec.lifecycleFilter⟩ found = .ok (found.filter Record.isActive) := by
    rw [chosen, hadmitted]
    exact Predicate.choose_eq_filter hevaluate found
  rw [answer]
  cases reader.candidates store query with
  | error e => rfl
  | ok found =>
    simp only [bind, Except.bind, hchosen]

end Reader

/-! ## Not asking for the flags -/

/-- A predicate none of whose conditions names a flag. -/
def Predicate.IgnoresFlags (p : Predicate) : Prop :=
  p.Everywhere fun c => c.column ≠ .text archivedColumn ∧ c.column ≠ .text deletedColumn

/-- Only a text names a column. -/
theorem Datum.name?_eq_some {d : Datum} {name : String} : d.name? = .ok (some name) ↔ d = .text name := by
  unfold name?
  split
  · simp
  · next hother =>
    refine iff_of_false ?_ (hother name)
    cases d.checkHashable <;> nofun

namespace Record.SameButFlags

variable {r other : Record} {c : Conversion}

/-- Records that differ in their flags only have the same other columns. -/
theorem get?_eq (h : r.SameButFlags other) {name : String}
    (hname : name ≠ archivedColumn ∧ name ≠ deletedColumn) : other.get name = r.get name := by
  rw [get, get, h.columns name hname.1 hname.2]

/-- A condition on another column does not see the flags. -/
theorem evaluate_condition (h : r.SameButFlags other) {condition : Condition}
    (hname : condition.column ≠ .text archivedColumn ∧ condition.column ≠ .text deletedColumn) :
    condition.evaluate c other = condition.evaluate c r := by
  have hfind : other.find? condition.column = r.find? condition.column := by
    rw [find?, find?]
    cases hcolumn : condition.column.name? with
    | error e => rfl
    | ok named =>
      cases named with
      | none => rfl
      | some name =>
        -- The condition names a column, and it is none of the flags.
        rw [Datum.name?_eq_some.mp hcolumn] at hname
        have hvalue : Assoc.get? name other.columns = Assoc.get? name r.columns :=
          h.columns name (fun h => hname.1 (congrArg _ h)) fun h => hname.2 (congrArg _ h)
        simp only [bind, Except.bind, Option.bind, hvalue]
  rw [Condition.evaluate, Condition.evaluate, hfind]

/-- A predicate that does not name the flags says the same of records that differ in their flags
only. -/
theorem evaluate (h : r.SameButFlags other) {p : Predicate} (hp : p.IgnoresFlags) :
    p.evaluate c other = p.evaluate c r := by
  induction hp with
  | @node connective conditions children own _ ih =>
    have hconditions : conditions.map (Condition.evaluate c other) =
        conditions.map (Condition.evaluate c r) :=
      List.map_congr_left fun condition hmem => h.evaluate_condition (own condition hmem)
    have hchildren : Predicate.evaluations c other children = Predicate.evaluations c r children := by
      rw [Predicate.evaluations_eq_map, Predicate.evaluations_eq_map]
      exact List.map_congr_left ih
    cases connective with
    | all => rw [Predicate.evaluate, Predicate.evaluate, hconditions, hchildren]
    | any => rw [Predicate.evaluate, Predicate.evaluate, hconditions, hchildren]
    | foreign typeName shown => rfl

end Record.SameButFlags

namespace Reading

variable {α : Type} {codec : Codec α} {change : Record → Record}

/-- A change that decoding does not see changes nothing that is decoded. -/
theorem decodeAll_map (h : ∀ r, codec.decode (change r) = codec.decode r) (mask : FieldMask)
    (records : List Record) :
    decodeAll codec mask (records.map change) = decodeAll codec mask records := by
  induction records with
  | nil => rfl
  | cons r rest ih => rw [List.map_cons, decodeAll, decodeAll, h, ih]

/-- A change that decoding does not notice is not noticed in what a run gives. -/
theorem outcome_map (h : ∀ r, codec.decode (change r) = codec.decode r) (mask : FieldMask) (count : Nat)
    (answer : Except Error (List Record)) :
    outcome codec mask count (answer.map (List.map change)) = outcome codec mask count answer := by
  cases count with
  | zero => rfl
  | succ count =>
    cases answer with
    | error e => rfl
    | ok records =>
      change decodeAll codec mask ((records.map change).take (count + 1)) = _
      rw [← List.map_take, decodeAll_map h]
      rfl

end Reading

/-! ## What is stored -/

namespace Storage

variable {α : Type} {s : Storage α} {Q : Record → Prop} {store : Store}

/-- A call brings nothing into a store but encoded records. -/
theorem forall_perform (hstore : ∀ r ∈ store.records, Q r) {call : StorageCall α}
    (hcall : ∀ a ∈ call.records, ∀ r, s.reader.codec.encode a = .ok r → Q r) :
    ∀ r ∈ (s.perform Store.backend call store).2.records, Q r := by
  -- One instance is written as a list of one.
  have hwrite (written : List α)
      (hwritten : ∀ a ∈ written, ∀ r, s.reader.codec.encode a = .ok r → Q r) :
      ∀ r ∈ (s.writeAll Store.backend written store).2.records, Q r := by
    rw [writeAll]
    cases hstored : written.mapM s.reader.codec.encode with
    | error e => exact hstore
    | ok stored =>
      have hnew : ∀ r ∈ stored, Q r :=
        forall_mem_of_forall₂ (Result.mapM_eq_ok.mp hstored) fun a ha r => hwritten a ha r
      rcases stored with _ | ⟨first, rest⟩
      · exact hstore
      · exact Store.forall_put hstore hnew
  cases call with
  | write a => exact hwrite [a] hcall
  | writeAll written => exact hwrite written hcall
  | delete id =>
    rw [perform, delete, find_eq]
    cases s.layout.keyOf id with
    | error e => exact hstore
    | ok key =>
      cases hfound : store.get? key with
      | none =>
        simp only [hfound]
        exact hstore
      | some r =>
        simp only [hfound]
        exact fun r hr => hstore r (List.mem_filter.mp hr).1

/-- Calls bring nothing into a store but encoded records. -/
theorem forall_performAll (hstore : ∀ r ∈ store.records, Q r) {calls : List (StorageCall α)}
    (hcalls : ∀ call ∈ calls, ∀ a ∈ call.records, ∀ r, s.reader.codec.encode a = .ok r → Q r) :
    ∀ r ∈ (s.performAll Store.backend calls store).2.records, Q r := by
  induction calls generalizing store with
  | nil => exact hstore
  | cons call rest ih =>
    obtain ⟨hfirst, hrest⟩ := List.forall_mem_cons.mp hcalls
    exact ih (forall_perform hstore hfirst) hrest

/-- Instances that are written under distinct keys are all that an empty store holds then. -/
theorem records_writeAll {written : List α} {records : List Record}
    (hencode : List.Forall₂ (fun a r => s.reader.codec.encode a = .ok r) written records)
    (hkeys : Record.KeysDistinct records) :
    (s.performAll Store.backend [.writeAll written] {}).2.records = records := by
  have hall : written.mapM s.reader.codec.encode = .ok records := Result.mapM_eq_ok.mpr hencode
  simp only [performAll, perform, writeAll, hall]
  cases records with
  | nil => rfl
  | cons r rest => exact Store.foldl_putRecord_of_keysDistinct hkeys

/-- The query without conditions asks about all records of the layout. -/
theorem active_everything (hscope : ∀ r ∈ store.records, s.InScope r = true) :
    (s.reader.candidates store {}).bind (fun found =>
        Reader.upToLimit {} (Record.sortBy [] (found.filter Record.isActive))) =
      .ok (store.records.filter Record.isActive) := by
  have hfound : s.reader.candidates store {} = .ok (store.records.filter s.InScope) := rfl
  rw [hfound, List.filter_eq_self.mpr hscope]
  rfl

end Storage

namespace Model

/-- A record that differs in its flags only is decoded to the same instance. -/
theorem decode_sameButFlags {schema : Schema} {r other : Record} (h : r.SameButFlags other) :
    decode schema other = decode schema r := by
  rw [decode, decode, h.key, h.payload]

/-- A query whose root has no parts gives the active ones of the records that it asks about. -/
theorem take_lifecycle (harchived : layout.column? archivedColumn = some (.flag archivedColumn))
    (hdeleted : layout.column? deletedColumn = some (.flag deletedColumn))
    (hboolean : registry.get? .boolean = some ColumnType.toBoolean) (catalog : Catalog) (schema : Schema)
    (config : ReadConfig) (idField : String) {store : Store}
    (hlength : store.records.length < 10 ^ Number.maxDigits) {query : RecordQuery}
    (hempty : query.predicate.isEmpty = true) (happly : config.applyActiveFilter = true) (count : Nat) :
    let s := storage catalog schema registry layout config idField
    ((s.readAll query).take s.reader Store.backend count store).1 =
      Reading.outcome s.reader.codec query.mask count
        ((s.reader.candidates store query).bind fun found => Reader.upToLimit query
          (Record.sortBy query.orderBy (found.filter Record.isActive))) := by
  intro s
  -- The predicate of active records stands in for the empty one.
  have hprepare : s.reader.prepare query = ⟨query, Codec.lifecycleFilter⟩ := by
    have hactive : s.reader.codec.activeFilter = some Codec.lifecycleFilter := by
      change Codec.activeFilterOf layout = _
      rw [Codec.activeFilterOf, Layout.hasLifecycle, harchived, hdeleted]
      rfl
    have hlooked : s.reader.config.applyActiveFilter = true := happly
    rw [Reader.prepare, hempty, hlooked, hactive]
    rfl
  rw [Storage.readAll, Reading.take_delivered (Reader.delivers_answer _ hlength), hprepare]
  exact congrArg _ (Reader.answer_lifecycle (Reader.convert_unset harchived hboolean)
    (Reader.convert_unset hdeleted hboolean) query)

/-- Let a layout have the lifecycle columns, and declare no columns of their names. Let calls write
and remove instances, in a store without records of the kind. What the store then holds of the kind
was written, and each stored record is active exactly if its instance is. A query whose root has no
parts gives the active ones of the records that it asks about, in its order and up to its limit,
whether it names identifiers or not. A query with parts, or where lifecycle is not looked at, gives
those that its own predicate chooses; and if neither its predicate nor its ordering names a flag, it
gives the same for a store whose records have other flags. What a query gives is decoded one by one,
up to a record that cannot be decoded. -/
theorem readAll_lifecycle {kind idColumn : String} {columns : List Column} {parent : Option Key}
    {layout : Layout} (hlayout : Layout.make kind columns idColumn parent true = .ok layout)
    (hdeclared : ∀ c ∈ columns, c.name ≠ archivedColumn ∧ c.name ≠ deletedColumn)
    {registry : Registry} (hboolean : registry.get? .boolean = some ColumnType.toBoolean)
    (catalog : Catalog) (schema : Schema) (config : ReadConfig) (idField : String)
    (calls : List (StorageCall Datum)) (before : Store)
    (hbefore : ∀ r ∈ before.records,
      (storage catalog schema registry layout config idField).InScope r = false) :
    let s := storage catalog schema registry layout config idField
    let store := (s.performAll Store.backend calls before).2
    let run (store : Store) (query : RecordQuery) (count : Nat) :=
      ((s.readAll query).take s.reader Store.backend count store).1
    (∀ r ∈ store.records, s.InScope r = true →
        ∃ call ∈ calls, ∃ a ∈ call.records, encode registry layout a = .ok r) ∧
      (∀ a r, encode registry layout a = .ok r → r.isActive = a.isActive) ∧
      (store.records.length < 10 ^ Number.maxDigits → ∀ query count,
        (query.predicate.isEmpty = true ∧ config.applyActiveFilter = true →
          run store query count = Reading.outcome s.reader.codec query.mask count
            ((s.reader.candidates store query).bind fun found => Reader.upToLimit query
              (Record.sortBy query.orderBy (found.filter Record.isActive)))) ∧
        (query.predicate.isEmpty = false ∨ config.applyActiveFilter = false →
          run store query count = Reading.outcome s.reader.codec query.mask count
            (s.reader.answer store ⟨query, query.predicate⟩) ∧
          (query.predicate.IgnoresFlags →
            (∀ o ∈ query.orderBy, o.column ≠ archivedColumn ∧ o.column ≠ deletedColumn) →
            ∀ reflag : Record → Record, (∀ r : Record, r.SameButFlags (reflag r)) →
            ∀ other : Store, other.records = store.records.map reflag →
              run other query count = run store query count))) := by
  intro s store run
  obtain ⟨harchived, hdeleted⟩ := Layout.column?_make hlayout hdeclared
  have hrun (store : Store) (hlength : store.records.length < 10 ^ Number.maxDigits) (query : RecordQuery)
      (count : Nat) : run store query count = Reading.outcome s.reader.codec query.mask count
        (s.reader.answer store (s.reader.prepare query)) :=
    Reading.take_delivered (Reader.delivers_answer _ hlength) count
  refine ⟨?_, fun a r => isActive_of_encode harchived hdeleted hboolean, fun hlength query count => ⟨?_, ?_⟩⟩
  · refine Storage.forall_performAll (fun r hr hscope => ?_) fun call hcall a ha r hr _ =>
      ⟨call, hcall, a, ha, hr⟩
    rw [hbefore r hr] at hscope
    cases hscope
  · rintro ⟨hempty, happly⟩
    exact take_lifecycle harchived hdeleted hboolean catalog schema config idField hlength hempty happly count
  · intro hown
    -- A predicate of its own is taken as it is, so the flags are not asked for.
    have hprepare : s.reader.prepare query = ⟨query, query.predicate⟩ := by
      have hnone : (query.predicate.isEmpty && s.reader.config.applyActiveFilter) = false :=
        Bool.and_eq_false_iff.mpr hown
      rw [Reader.prepare, hnone]
      rfl
    refine ⟨by rw [hrun store hlength, hprepare], fun hignores horder reflag hreflag other hother => ?_⟩
    have hlength' : other.records.length < 10 ^ Number.maxDigits := by
      rwa [hother, List.length_map]
    rw [hrun other hlength', hrun store hlength, hprepare]
    -- Neither the conditions nor the orders see the flags.
    rw [Reader.answer_map hother (fun r => (hreflag r).key)
      (fun r => (hreflag r).evaluate hignores) (fun o ho r => (hreflag r).get?_eq (horder o ho))]
    exact Reading.outcome_map (fun r => decode_sameButFlags (hreflag r)) _ count _

/-- Of two notes that are written, the archived one is left out. -/
theorem readAll_lifecycle_archived :
    let note : Schema := ⟨"Note", [.mk "id" .text none, .mk "archived" .boolean none]⟩
    let layout : Layout := ⟨"Note", [.flag archivedColumn, .flag deletedColumn], "id", none, by decide⟩
    let named (id : String) (archived : Bool) : Datum :=
      note.construct [("id", .text id), ("archived", .boolean archived)]
    let s := storage [note] note .default layout .default "id"
    let store := (s.performAll Store.backend
      [.writeAll [named "a" false, named "b" true]] {}).2
    ∃ back, ((s.readAll {}).take s.reader Store.backend 5 store).1 = ([back], none) ∧
      back.same (named "a" false) = true := by
  intro note layout named s store
  have hlayout : Layout.make "Note" [] "id" none true = .ok layout := rfl
  have hid (id : String) (archived : Bool) : layout.idOf (named id archived) = .text id := by
    rw [Layout.idOf, Datum.resolve_of_undotted (by decide)]
    rfl
  have hactive (id : String) (archived : Bool) : (named id archived).isActive = !archived := by
    rw [Datum.isActive, Datum.resolve_of_undotted (by decide), Datum.resolve_of_undotted (by decide)]
    cases archived <;> rfl
  have hencode (id : String) (archived : Bool) (hne : id ≠ "") :
      ∃ r, encode .default layout (named id archived) = .ok r := by
    have hname : (Datum.text id).keyName = .ok id := if_neg hne
    obtain ⟨key, hkey⟩ := Layout.exists_keyOf (l := layout) hname
    rw [encode, hid, hkey]
    exact ⟨_, rfl⟩
  obtain ⟨a, ha⟩ := hencode "a" false (by decide)
  obtain ⟨b, hb⟩ := hencode "b" true (by decide)
  have hkeyA : layout.keyOf (.text "a") = .ok a.key := hid "a" false ▸ (of_encode ha).1
  have hkeyB : layout.keyOf (.text "b") = .ok b.key := hid "b" true ▸ (of_encode hb).1
  -- Different identifiers have different keys, so neither record replaces the other.
  have hkeys : a.key ≠ b.key := fun h =>
    absurd ((Layout.Names.eq_iff ⟨_, rfl, hkeyA⟩ ⟨_, rfl, hkeyB⟩).mp h) (by decide)
  have hstored : store.records = [a, b] :=
    Storage.records_writeAll (.cons ha (.cons hb .nil)) (List.nodup_cons.mpr
      ⟨fun hmem => hkeys (List.mem_singleton.mp hmem), List.nodup_singleton _⟩)
  have hboolean : Registry.default.get? .boolean = some ColumnType.toBoolean := rfl
  obtain ⟨-, hflags, hruns⟩ := readAll_lifecycle hlayout (List.forall_mem_nil _) hboolean [note] note
    .default "id" [.writeAll [named "a" false, named "b" true]] {} (List.forall_mem_nil _)
  have hlength : store.records.length < 10 ^ Number.maxDigits := by
    rw [hstored]
    exact Nat.lt_trans (by decide : 2 < Number.maxDigits) (Nat.lt_pow_self (by decide))
  have hselected : (s.reader.candidates store {}).bind (fun found => Reader.upToLimit {}
      (Record.sortBy [] (found.filter Record.isActive))) = .ok [a] := by
    have hscope : ∀ r ∈ store.records, s.InScope r = true := by
      rw [hstored]
      exact List.forall_mem_cons.mpr ⟨Layout.inScope_keyOf hkeyA,
        List.forall_mem_singleton.mpr (Layout.inScope_keyOf hkeyB)⟩
    have hactiveA : a.isActive = true := (hflags _ _ ha).trans (hactive "a" false)
    have hactiveB : b.isActive = false := (hflags _ _ hb).trans (hactive "b" true)
    rw [Storage.active_everything hscope, hstored]
    simp [hactiveA, hactiveB]
  -- The note comes back from its payload; this is computed.
  have hread : ((payload (named "a" false)).toOption.bind note.read?).any
      (·.same (named "a" false)) = true := by
    decide +kernel
  obtain ⟨back, hback, hsame⟩ := exists_back hread ha
  refine ⟨back, ?_, hsame⟩
  refine ((hruns hlength {} 5).1 ⟨rfl, rfl⟩).trans ((congrArg _ hselected).trans ?_)
  exact Reading.decodeAll_of_decoded (.cons hback .nil) {}

/-- An envelope with a ratio that is no number is written and active, and what a query gives ends with a
failure in its place. -/
theorem readAll_lifecycle_notANumber :
    let layout : Layout :=
      ⟨"Envelope", [.flag archivedColumn, .flag deletedColumn], "id", none, by decide⟩
    let s := storage [innerSchema, envelopeSchema] envelopeSchema .default layout .default "id"
    let store := (s.performAll Store.backend [.write (envelope .nan)] {}).2
    Layout.make "Envelope" [] "id" none true = .ok layout ∧ (envelope .nan).isActive = true ∧
      ∃ r, encode .default layout (envelope .nan) = .ok r ∧ store.records = [r] ∧
        ((s.readAll {}).take s.reader Store.backend 1 store).1 =
          ([], some (.codec (.decode "Envelope:e"))) := by
  intro layout s store
  have hid : layout.idOf (envelope .nan) = .text "e" := idOf_envelope .nan
  obtain ⟨key, hkey, htext⟩ : ∃ key, layout.keyOf (.text "e") = .ok key ∧ key.toText = "Envelope:e" :=
    ⟨_, rfl, rfl⟩
  have hactive : (envelope .nan).isActive = true := by
    rw [Datum.isActive, Datum.resolve_of_undotted (by decide), Datum.resolve_of_undotted (by decide)]
    rfl
  obtain ⟨bytes, hpayload⟩ : ∃ bytes, payload (envelope .nan) = .ok bytes := ⟨_, rfl⟩
  obtain ⟨r, hr⟩ : ∃ r, encode .default layout (envelope .nan) = .ok r := by
    rw [encode, hid, hkey, hpayload]
    exact ⟨_, rfl⟩
  have hrkey : layout.keyOf (.text "e") = .ok r.key := hid ▸ (of_encode hr).1
  have hstored : store.records = [r] :=
    Storage.records_writeAll (.cons hr .nil) (List.nodup_singleton _)
  refine ⟨rfl, hactive, r, hr, hstored, ?_⟩
  have hlength : store.records.length < 10 ^ Number.maxDigits := by
    rw [hstored]
    exact Nat.one_lt_pow (by decide) (by decide)
  have hselected : (s.reader.candidates store {}).bind (fun found => Reader.upToLimit {}
      (Record.sortBy [] (found.filter Record.isActive))) = .ok [r] := by
    have hscope : ∀ r ∈ store.records, s.InScope r = true := by
      rw [hstored]
      exact List.forall_mem_singleton.mpr (Layout.inScope_keyOf hrkey)
    have hflags : r.isActive = true := (isActive_of_encode rfl rfl rfl hr).trans hactive
    rw [Storage.active_everything hscope, hstored]
    simp [hflags]
  have harchived : layout.column? archivedColumn = some (.flag archivedColumn) := rfl
  have hdeleted : layout.column? deletedColumn = some (.flag deletedColumn) := rfl
  have hboolean : Registry.default.get? .boolean = some ColumnType.toBoolean := rfl
  have hempty : ({} : RecordQuery).predicate.isEmpty = true := rfl
  have hrun := take_lifecycle harchived hdeleted hboolean [innerSchema, envelopeSchema]
    envelopeSchema .default "id" hlength hempty rfl 1
  refine hrun.trans ((congrArg _ hselected).trans ?_)
  -- The record is active and selected, and cannot be decoded.
  have hdecode : s.reader.codec.decode r = .error (.codec (.decode "Envelope:e")) := by
    rw [← htext, Except.ok.inj (hkey.symm.trans hrkey)]
    exact decode_envelope_nan hr
  change Reading.decodeAll s.reader.codec {} [r] = _
  rw [Reading.decodeAll, hdecode]

end Model

end RecordStore
