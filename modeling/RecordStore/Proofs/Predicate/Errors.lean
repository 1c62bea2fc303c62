import RecordStore.Proofs.Datum.Plain
import RecordStore.Proofs.Json.Readable
import RecordStore.Proofs.Predicate.Faults

/-!
# Errors of written predicates

Whatever is written in place of a predicate is meant to be refused by a query error. The check of a
form keeps to that but for types that cannot be looked up and numbers that are too long to be shown
(`Form.isQueryError_of_checkNode`), and so does validation (`Form.faults_answers_iff`). What a text
writes has no such numbers. Construction casts values, and two casts of JSON numbers go out of range.
`Form.ofJsonText_error` puts this together for all texts.
-/

namespace RecordStore

namespace Form

/-- Whether a column may be named always has an answer. -/
def AnswersNames (allowed : Option AllowedColumns) : Prop :=
  ∀ columns, allowed = some columns → ∀ name, ∃ answer, columns.permits name = .ok answer

/-- The casts of JSON data that end in an error that is no query error. An array or object does not
name a type, and cannot be looked up as one; an infinity is no whole number; and a whole number may
be too large for a double. -/
inductive Escapes : Datum → Datum → Error → Prop
  | array (given : Datum) (items : List Datum) :
      Escapes given (.list items) (.badType (.unhashable "list"))
  | object (given : Datum) (entries : List (Datum × Datum)) :
      Escapes given (.dict entries) (.badType (.unhashable "dict"))
  | infinite (negative : Bool) :
      Escapes (.double (.infinite negative)) (.text "integer") (.outOfRange .infinityToInteger)
  | tooLarge {n : Int} (h : Double.ofInt? n = none) :
      Escapes (.integer n) (.text "double") (.outOfRange .integerToDouble)

variable {allowed : Option AllowedColumns} {path : String} {entries : List (Datum × Datum)}
  {e : Error}

/-! ## What a form shows -/

/-- A condition gives a datum in the place of an operator or of a type, null if there is none. -/
def Shows (d shown : Datum) : Prop :=
  ∃ entries key, d = .dict entries ∧ key ∈ ["op", "value_type"] ∧
    shown = (Datum.lookup key entries).getD .null

/-- Some condition on the first levels of a written predicate gives such a datum. -/
def ShowsWithin (shown : Datum) (levels : Nat) (d : Datum) : Prop :=
  ∃ condition, HasWithin condition levels d ∧ Shows condition shown

/-- Nothing can be said about a condition, for an error: its type cannot be looked up, or the message
about it would show what cannot be written. -/
inductive Blocks (d : Datum) : Error → Prop
  | type {given target : Datum} {e : Error} (asks : AsksCast d given target)
      (unhashable : target.checkHashable = .error e) : Blocks d e
  | shown {shown : Datum} (shows : Shows d shown) (long : shown.isWritable = false) :
      Blocks d (.badValue .tooLongToWrite)

/-- What stands under a key of a dictionary that can be written can be written, and so can null, which
stands for a missing key. -/
theorem isWritable_getD_lookup (h : (Datum.dict entries).isWritable = true) (key : String) :
    ((Datum.lookup key entries).getD .null).isWritable = true := by
  cases hd : Datum.lookup key entries with
  | none => rfl
  | some d =>
    obtain ⟨entry, hentry, rfl⟩ := Datum.exists_mem_of_lookup hd
    exact (Datum.areWritableEntries_iff.mp h entry hentry).2

/-- The items of a list that can be written can be written. -/
theorem Lists.isWritable {key : String} {items : List Datum} (h : Lists entries key items)
    (hw : (Datum.dict entries).isWritable = true) : ∀ d ∈ items, d.isWritable = true := by
  obtain ⟨-, rfl⟩ | hlist := h
  · exact List.forall_mem_nil _
  · have hitems := isWritable_getD_lookup hw key
    rw [hlist] at hitems
    exact Datum.areWritable_iff.mp hitems

/-- The conditions of a form that can be written can be written. -/
theorem HasWithin.isWritable {levels : Nat} {d condition : Datum} (h : HasWithin condition levels d)
    (hw : d.isWritable = true) : condition.isWritable = true := by
  induction h with
  | own hlisted hmem => exact hlisted.isWritable hw _ hmem
  | child hlisted hmem _ ih => exact ih (hlisted.isWritable hw _ hmem)

/-- What messages show of data that can be written can be written. -/
theorem ShowsWithin.isWritable {levels : Nat} {d shown : Datum} (h : ShowsWithin shown levels d)
    (hw : d.isWritable = true) : shown.isWritable = true := by
  obtain ⟨condition, hwithin, entries, key, rfl, -, rfl⟩ := h
  exact isWritable_getD_lookup (hwithin.isWritable hw) key

/-- The values and types of the conditions of a form that can be written can be written. -/
theorem AsksWithin.isWritable {levels : Nat} {d given target : Datum}
    (h : AsksWithin given target levels d) (hw : d.isWritable = true) :
    given.isWritable = true ∧ target.isWritable = true := by
  obtain ⟨condition, hwithin, entries, rfl, htarget, rfl⟩ := h
  have hentries := hwithin.isWritable hw
  have htype := isWritable_getD_lookup hentries "value_type"
  rw [htarget] at htype
  exact ⟨isWritable_getD_lookup hentries "value", htype⟩

/-! ## The check -/

/-- A type cannot be looked up if it cannot be hashed. -/
theorem namesCast_eq_error {d : Datum} : namesCast d = .error e ↔ d.checkHashable = .error e := by
  unfold namesCast
  split
  · exact iff_of_false nofun nofun
  · exact iff_of_false nofun nofun
  · exact Result.map_eq_error

/-- What a missing key stands for can be looked up. -/
theorem exists_of_checkHashable_getD {d : Option Datum} (h : (d.getD .null).checkHashable = .error e) :
    ∃ target, d = some target ∧ target.checkHashable = .error e := by
  cases d with
  | none => cases h
  | some target => exact ⟨target, rfl, h⟩

theorem isQueryError_of_checkColumn (hanswers : AnswersNames allowed) {column : Option Datum}
    (h : checkColumn allowed path column = .error e) : e.isQueryError = true := by
  unfold checkColumn at h
  split at h
  · cases h
    rfl
  · cases h
  · next name columns _ =>
    obtain ⟨answer, hanswer⟩ := hanswers columns rfl name
    rw [hanswer] at h
    cases answer with
    | true => cases h
    | false =>
      cases h
      rfl

/-- An error whose message shows a datum of a condition is a query error, unless the datum cannot be
written. -/
theorem isQueryError_of_showing {d : Datum} {shown : Datum} (hshows : Shows d shown) {fault : Error}
    (hfault : fault.isQueryError = true) :
    (Error.showing shown.isWritable fault).isQueryError = true ∨
      Blocks d (.showing shown.isWritable fault) := by
  cases hw : shown.isWritable with
  | true => exact .inl hfault
  | false => exact .inr (.shown hshows hw)

/-- A condition is refused by a query error, unless nothing can be said about it. -/
theorem isQueryError_of_checkCondition (hanswers : AnswersNames allowed) {d : Datum}
    (h : checkCondition allowed path d = .error e) : e.isQueryError = true ∨ Blocks d e := by
  unfold checkCondition at h
  split at h
  case h_2 =>
    cases h
    exact .inl rfl
  case h_1 entries =>
    cases hop : comparison? ((Datum.lookup "op" entries).getD .null) with
    | none =>
      simp only [hop, Option.isNone_none, if_true] at h
      obtain rfl := Except.error.inj h
      exact isQueryError_of_showing ⟨entries, "op", rfl, by decide, rfl⟩ rfl
    | some c =>
      simp only [hop, Option.isNone_some, Bool.false_eq_true, if_false] at h
      obtain hcolumn | ⟨_, -, h⟩ := Result.bind_eq_error.mp h
      · exact .inl (isQueryError_of_checkColumn hanswers hcolumn)
      · obtain hnamed | ⟨named, -, h⟩ := Result.bind_eq_error.mp h
        · obtain ⟨target, htarget, hhash⟩ := exists_of_checkHashable_getD (namesCast_eq_error.mp hnamed)
          exact .inr (.type ⟨entries, rfl, htarget, rfl⟩ hhash)
        · cases named with
          | true => cases h
          | false =>
            obtain rfl := Except.error.inj h
            exact isQueryError_of_showing ⟨entries, "value_type", rfl, by decide, rfl⟩ rfl

theorem isQueryError_of_checkOperator {operator : Option Datum}
    (h : checkOperator path operator = .error e) : e.isQueryError = true := by
  unfold checkOperator at h
  split at h
  · cases h
    rfl
  · split at h
    · cases h
    · cases h
      rfl

/-- Conditions are refused with a query error, unless nothing can be said about one. -/
theorem isQueryError_of_checkConditions (hanswers : AnswersNames allowed) {index : Nat}
    {params : List Datum} (h : checkConditions allowed path index params = .error e) :
    e.isQueryError = true ∨ ∃ d ∈ params, Blocks d e := by
  induction params generalizing index with
  | nil => cases h
  | cons d rest ih =>
    obtain hfirst | ⟨_, -, hrest⟩ := Result.bind_eq_error.mp h
    · refine (isQueryError_of_checkCondition hanswers hfirst).imp_right fun hblocks => ?_
      exact ⟨d, List.mem_cons_self, hblocks⟩
    · refine (ih hrest).imp_right fun ⟨other, hmem, hblocks⟩ => ?_
      exact ⟨other, List.mem_cons_of_mem d hmem, hblocks⟩

/-- A list under a key is refused as such, or for its items. -/
theorem checkList_eq_error {key : String} {fault : FormFault} {step : List Datum → Except Error Unit}
    (h : (match list? (Datum.lookup key entries) with
      | none => refuse path fault
      | some items => step items) = .error e) :
    e.isQueryError = true ∨ ∃ items, Lists entries key items ∧ step items = .error e := by
  cases hitems : list? (Datum.lookup key entries) with
  | none =>
    rw [hitems] at h
    cases h
    exact .inl rfl
  | some items =>
    rw [hitems] at h
    exact .inr ⟨items, list?_eq_some.mp hitems, h⟩

/-- A form is refused by a query error, unless it has a condition that nothing can be said about. -/
theorem isQueryError_of_checkNode (hanswers : AnswersNames allowed) {levels : Nat} {d : Datum}
    (h : checkNode allowed levels path d = .error e) :
    e.isQueryError = true ∨ ∃ condition, HasWithin condition levels d ∧ Blocks condition e := by
  induction levels generalizing path d with
  | zero =>
    cases d
    all_goals
      cases h
      exact .inl rfl
  | succ levels ih =>
    cases d
    case dict entries =>
      rw [checkNode_dict] at h
      -- The operator, the conditions and the children are checked in this order.
      obtain hop | ⟨_, -, h⟩ := Result.bind_eq_error.mp h
      · exact .inl (isQueryError_of_checkOperator hop)
      obtain hparams | ⟨_, -, h⟩ := Result.bind_eq_error.mp h
      · obtain hlist | ⟨params, hlisted, hparams⟩ := checkList_eq_error hparams
        · exact .inl hlist
        · refine (isQueryError_of_checkConditions hanswers hparams).imp_right ?_
          rintro ⟨condition, hmem, hblocks⟩
          exact ⟨condition, .own hlisted hmem, hblocks⟩
      · obtain hlist | ⟨children, hlisted, hchildren⟩ := checkList_eq_error h
        · exact .inl hlist
        · obtain ⟨entry, hentry, hchild⟩ := Result.exists_of_forM_eq_error hchildren
          have hmem : entry.1 ∈ children := List.fst_mem_of_mem_zipIdx hentry
          refine (ih hchild).imp_right ?_
          rintro ⟨condition, hwithin, hblocks⟩
          exact ⟨condition, .child hlisted hmem hwithin, hblocks⟩
    all_goals
      cases h
      exact .inl rfl

/-! ## Validation -/

/-- The faults of a column can always be said. -/
theorem columnFaults_answers (hanswers : AnswersNames allowed) (column : Option Datum) :
    ∃ found, columnFaults allowed path column = .ok found := by
  unfold columnFaults
  split
  · exact ⟨_, rfl⟩
  · exact ⟨_, rfl⟩
  · next name columns _ =>
    obtain ⟨answer, hanswer⟩ := hanswers columns rfl name
    rw [hanswer]
    cases answer <;> exact ⟨_, rfl⟩

/-- A type is looked up if it can be hashed. -/
theorem namesCast_answers_iff {d : Datum} :
    (∃ named, namesCast d = .ok named) ↔ d.checkHashable = .ok () := by
  cases h : namesCast d with
  | ok named =>
    refine iff_of_true ⟨named, rfl⟩ ?_
    cases hhash : d.checkHashable with
    | ok _ => rfl
    | error e => cases h.symm.trans (namesCast_eq_error.mpr hhash)
  | error e =>
    rw [namesCast_eq_error.mp h]
    exact iff_of_false nofun nofun

/-- The fault of a datum is found exactly if the datum can be written, provided that what passes can. -/
theorem faultUnless_answers_iff {passes : Bool} {given : Datum} {fault : FormFault}
    (hpasses : passes = true → given.isWritable = true) :
    (∃ found, faultUnless passes path given fault = .ok found) ↔ given.isWritable = true := by
  unfold faultUnless
  cases passes with
  | true => exact iff_of_true ⟨_, rfl⟩ (hpasses rfl)
  | false =>
    cases given.isWritable with
    | true => exact iff_of_true ⟨_, rfl⟩ rfl
    | false => exact iff_of_false nofun nofun

/-- What names a comparison can be written. -/
theorem isWritable_of_comparison? {d : Datum} (h : (comparison? d).isSome = true) :
    d.isWritable = true := by
  obtain ⟨c, hc⟩ := Option.isSome_iff_exists.mp h
  obtain rfl := comparison?_eq_some.mp hc
  rfl

/-- What names a type can be written. -/
theorem isWritable_of_namesCast {d : Datum} (h : namesCast d = .ok true) : d.isWritable = true := by
  obtain rfl | ⟨t, rfl⟩ := namesCast_eq_ok.mp h <;> rfl

/-- All can be said about a condition if its operator and its type can be written, and its type looked
up. -/
theorem forall_not_blocks_iff :
    (∀ e, ¬Blocks (.dict entries) e) ↔
      ((Datum.lookup "op" entries).getD .null).isWritable = true ∧
      ((Datum.lookup "value_type" entries).getD .null).checkHashable = .ok () ∧
      ((Datum.lookup "value_type" entries).getD .null).isWritable = true := by
  constructor
  · intro h
    have hshown (key : String) (hkey : key ∈ ["op", "value_type"]) :
        ((Datum.lookup key entries).getD .null).isWritable = true := by
      by_contra hlong
      exact h _ (.shown ⟨entries, key, rfl, hkey, rfl⟩ (Bool.eq_false_of_not_eq_true hlong))
    refine ⟨hshown "op" (by decide), ?_, hshown "value_type" (by decide)⟩
    cases hhash : ((Datum.lookup "value_type" entries).getD .null).checkHashable with
    | ok _ => rfl
    | error e =>
      obtain ⟨target, htarget, hhash⟩ := exists_of_checkHashable_getD hhash
      exact absurd (.type ⟨entries, rfl, htarget, rfl⟩ hhash) (h e)
  · rintro ⟨hop, hhash, htype⟩ e (⟨⟨_, ⟨⟩, htarget, -⟩, herror⟩ | ⟨⟨_, key, ⟨⟩, hkey, rfl⟩, hlong⟩)
    · rw [htarget] at hhash
      cases hhash.symm.trans herror
    · obtain rfl | rfl : key = "op" ∨ key = "value_type" := by simpa using hkey
      · exact Bool.false_ne_true (hlong.symm.trans hop)
      · exact Bool.false_ne_true (hlong.symm.trans htype)

/-- The faults of a condition are found exactly if something can be said about it. -/
theorem conditionFaults_answers_iff (hanswers : AnswersNames allowed) {d : Datum} :
    (∃ found, conditionFaults allowed path d = .ok found) ↔ ∀ e, ¬Blocks d e := by
  cases d
  case dict entries =>
    -- A type with a name is not shown, and could be written if it were.
    have hnames {named : Bool}
        (h : namesCast ((Datum.lookup "value_type" entries).getD .null) = .ok named) :
        named = true → ((Datum.lookup "value_type" entries).getD .null).isWritable = true :=
      fun hnamed => isWritable_of_namesCast (hnamed ▸ h)
    rw [forall_not_blocks_iff, conditionFaults_dict]
    constructor
    · rintro ⟨_, h⟩
      obtain ⟨ofOperator, hoperator, h⟩ := Result.bind_eq_ok.mp h
      obtain ⟨ofColumn, -, h⟩ := Result.bind_eq_ok.mp h
      obtain ⟨named, hnamed, h⟩ := Result.bind_eq_ok.mp h
      obtain ⟨ofType, htype, -⟩ := Result.bind_eq_ok.mp h
      exact ⟨(faultUnless_answers_iff isWritable_of_comparison?).mp ⟨_, hoperator⟩,
        namesCast_answers_iff.mp ⟨named, hnamed⟩, (faultUnless_answers_iff (hnames hnamed)).mp ⟨_, htype⟩⟩
    · rintro ⟨hop, hhash, htype⟩
      obtain ⟨ofOperator, hoperator⟩ := (faultUnless_answers_iff isWritable_of_comparison?).mpr hop
      obtain ⟨ofColumn, hcolumn⟩ := columnFaults_answers hanswers (Datum.lookup "column" entries)
      obtain ⟨named, hnamed⟩ := namesCast_answers_iff.mpr hhash
      obtain ⟨ofType, htype⟩ := (faultUnless_answers_iff (hnames hnamed)).mpr htype
      exact ⟨_, Result.bind_eq_ok.mpr ⟨ofOperator, hoperator, Result.bind_eq_ok.mpr ⟨ofColumn, hcolumn,
        Result.bind_eq_ok.mpr ⟨named, hnamed, Result.bind_eq_ok.mpr ⟨ofType, htype, rfl⟩⟩⟩⟩⟩
  all_goals
    refine iff_of_true ⟨_, rfl⟩ ?_
    rintro _ (⟨⟨_, ⟨⟩, -⟩, -⟩ | ⟨⟨_, _, ⟨⟩, -⟩, -⟩)

/-- The faults of conditions can be said if nothing blocks any of them. -/
theorem conditionsFaults_answers_iff (hanswers : AnswersNames allowed) {index : Nat}
    {params : List Datum} :
    (∃ found, conditionsFaults allowed path index params = .ok found) ↔
      ∀ d ∈ params, ∀ e, ¬Blocks d e := by
  induction params generalizing index with
  | nil => exact iff_of_true ⟨[], rfl⟩ (List.forall_mem_nil _)
  | cons d rest ih =>
    rw [List.forall_mem_cons, ← conditionFaults_answers_iff hanswers, ← ih, conditionsFaults]
    constructor
    · rintro ⟨_, h⟩
      obtain ⟨first, hfirst, h⟩ := Result.bind_eq_ok.mp h
      obtain ⟨others, hothers, -⟩ := Result.bind_eq_ok.mp h
      exact ⟨⟨first, hfirst⟩, others, hothers⟩
    · rintro ⟨⟨first, hfirst⟩, others, hothers⟩
      exact ⟨_, Result.bind_eq_ok.mpr ⟨first, hfirst, Result.bind_eq_ok.mpr ⟨others, hothers, rfl⟩⟩⟩

/-- The faults of a list can be said if those of its items can. -/
theorem listFaults_answers_iff {key : String} {fault : FormFault}
    {step : List Datum → Except Error Faults} :
    (∃ found, listFaults path fault step (Datum.lookup key entries) = .ok found) ↔
      ∀ items, Lists entries key items → ∃ found, step items = .ok found := by
  simp only [← list?_eq_some, listFaults]
  cases list? (Datum.lookup key entries) with
  | none => exact iff_of_true ⟨_, rfl⟩ fun items hitems => by cases hitems
  | some items => simp

/-- The faults of some parts are found together exactly if those of each part are. -/
theorem flatten_mapM_answers_iff {α : Type} {step : α → Except Error Faults} {parts : List α} :
    (∃ found : Faults, (do return (← parts.mapM step).flatten) = (.ok found : Except Error Faults)) ↔
      ∀ part ∈ parts, ∃ found, step part = .ok found := by
  rw [← Result.exists_mapM_eq_ok]
  cases parts.mapM step with
  | ok found => exact iff_of_true ⟨_, rfl⟩ ⟨found, rfl⟩
  | error e => exact iff_of_false nofun nofun

/-- The faults of a form are found exactly if something can be said about each of its conditions. -/
theorem nodeFaults_answers_iff (hanswers : AnswersNames allowed) {levels : Nat} {d : Datum} :
    (∃ found, nodeFaults allowed levels path d = .ok found) ↔
      ∀ condition, HasWithin condition levels d → ∀ e, ¬Blocks condition e := by
  induction levels generalizing path d with
  | zero =>
    refine iff_of_true ?_ nofun
    cases d <;> exact ⟨_, rfl⟩
  | succ levels ih =>
    cases d
    case dict entries =>
      -- The node itself answers for its conditions, and the induction hypothesis for its children.
      have hown (fault : FormFault) :
          (∃ found, listFaults path fault (conditionsFaults allowed path 0)
              (Datum.lookup "params" entries) = .ok found) ↔
            ∀ params, Lists entries "params" params → ∀ d ∈ params, ∀ e, ¬Blocks d e := by
        simp only [listFaults_answers_iff, conditionsFaults_answers_iff hanswers]
      have hbelow (fault : FormFault) :
          (∃ found, listFaults path fault (fun children => do
              return (← children.zipIdx.mapM fun entry =>
                nodeFaults allowed levels (itemPath path "children" entry.2) entry.1).flatten)
              (Datum.lookup "children" entries) = .ok found) ↔
            ∀ children, Lists entries "children" children → ∀ d ∈ children, ∀ condition,
              HasWithin condition levels d → ∀ e, ¬Blocks condition e := by
        simp only [listFaults_answers_iff, flatten_mapM_answers_iff, ih]
        exact forall₂_congr fun children _ => forall_zipIdx_iff (P := fun d => ∀ condition,
          HasWithin condition levels d → ∀ e, ¬Blocks condition e)
      rw [nodeFaults_dict]
      constructor
      · rintro ⟨_, h⟩
        obtain ⟨ofConditions, hconditions, h⟩ := Result.bind_eq_ok.mp h
        obtain ⟨ofChildren, hchildren, -⟩ := Result.bind_eq_ok.mp h
        rintro condition (⟨hlisted, hmem⟩ | ⟨hlisted, hmem, hwithin⟩)
        · exact (hown _).mp ⟨_, hconditions⟩ _ hlisted _ hmem
        · exact (hbelow _).mp ⟨_, hchildren⟩ _ hlisted _ hmem condition hwithin
      · intro h
        obtain ⟨ofConditions, hconditions⟩ := (hown .paramsNotList).mpr
          fun params hlisted d hmem => h d (.own hlisted hmem)
        obtain ⟨ofChildren, hchildren⟩ := (hbelow .childrenNotList).mpr
          fun children hlisted d hmem condition hwithin => h condition (.child hlisted hmem hwithin)
        rw [hconditions]
        exact ⟨_, Result.bind_eq_ok.mpr ⟨_, rfl, Result.bind_eq_ok.mpr ⟨_, hchildren, rfl⟩⟩⟩
    all_goals exact iff_of_true ⟨_, rfl⟩ nofun

/-- The faults of a form are found exactly if what its conditions give as types can be looked up, and
what they give as operators and types can be written. -/
theorem faults_answers_iff (hanswers : AnswersNames allowed) {d : Datum} :
    (∃ found, faults allowed d = .ok found) ↔
      (∀ given target, AsksWithin given target maxPredicateDepth d → target.checkHashable = .ok ()) ∧
        ∀ shown, ShowsWithin shown maxPredicateDepth d → shown.isWritable = true := by
  rw [faults, nodeFaults_answers_iff hanswers]
  constructor
  · refine fun h => ⟨?_, ?_⟩
    · rintro given target ⟨condition, hwithin, hasks⟩
      cases hhash : target.checkHashable with
      | ok _ => rfl
      | error e => exact absurd (.type hasks hhash) (h condition hwithin e)
    · rintro shown ⟨condition, hwithin, hshows⟩
      by_contra hlong
      exact h condition hwithin _ (.shown hshows (Bool.eq_false_of_not_eq_true hlong))
  · rintro ⟨hhashable, hwritable⟩ condition hwithin e (⟨hasks, herror⟩ | ⟨hshows, hlong⟩)
    · cases (hhashable _ _ ⟨condition, hwithin, hasks⟩).symm.trans herror
    · cases hlong.symm.trans (hwritable _ ⟨condition, hwithin, hshows⟩)

/-- Validation answers if the faults can be said. -/
theorem validate_answers_iff {d : Datum} :
    (∃ messages, validate allowed d = .ok messages) ↔ ∃ found, faults allowed d = .ok found := by
  constructor
  · rintro ⟨_, h⟩
    obtain ⟨found, hfound, -⟩ := Result.bind_eq_ok.mp h
    exact ⟨found, hfound⟩
  · rintro ⟨found, hfound⟩
    exact ⟨_, Result.bind_eq_ok.mpr ⟨found, hfound, rfl⟩⟩

/-! ## JSON data -/

/-- The items of the lists in JSON data are JSON data. -/
theorem Lists.exists_json {key : String} {items : List Datum} {members : List (String × Json)}
    (h : Lists (Datum.ofMembers members) key items) : ∀ d ∈ items, ∃ j, d = Datum.ofJson j := by
  obtain ⟨-, rfl⟩ | hlist := h
  · exact List.forall_mem_nil _
  · obtain ⟨j, hj⟩ := Datum.lookup_ofMembers hlist
    exact Datum.ofJson_eq_list hj.symm

/-- A condition from JSON asks for a cast of JSON to a type from JSON. -/
theorem AsksCast.exists_json {j : Json} {given target : Datum}
    (h : AsksCast (Datum.ofJson j) given target) :
    (∃ value, given = Datum.ofJson value) ∧ ∃ type, target = Datum.ofJson type := by
  obtain ⟨entries, hentries, htarget, rfl⟩ := h
  obtain ⟨members, rfl, rfl⟩ := Datum.ofJson_eq_dict hentries
  refine ⟨?_, Datum.lookup_ofMembers htarget⟩
  cases hvalue : Datum.lookup "value" (Datum.ofMembers members) with
  | none => exact ⟨.null, by rw [valueOf, hvalue]; rfl⟩
  | some value =>
    obtain ⟨json, rfl⟩ := Datum.lookup_ofMembers hvalue
    exact ⟨json, by rw [valueOf, hvalue]; rfl⟩

/-- The values and types in JSON data are JSON data. -/
theorem AsksWithin.exists_json {levels : Nat} {j : Json} {given target : Datum}
    (h : AsksWithin given target levels (Datum.ofJson j)) :
    (∃ value, given = Datum.ofJson value) ∧ ∃ type, target = Datum.ofJson type := by
  obtain ⟨condition, hwithin, hasks⟩ := h
  generalize hd : Datum.ofJson j = d at hwithin
  induction hwithin generalizing j with
  | own hlisted hmem =>
    obtain ⟨members, rfl, rfl⟩ := Datum.ofJson_eq_dict hd
    obtain ⟨inner, rfl⟩ := hlisted.exists_json _ hmem
    exact hasks.exists_json
  | child hlisted hmem _ ih =>
    obtain ⟨members, rfl, rfl⟩ := Datum.ofJson_eq_dict hd
    obtain ⟨inner, hinner⟩ := hlisted.exists_json _ hmem
    exact ih hinner.symm

/-! ## Casts -/

/-- What cannot be looked up in JSON data are its arrays and objects. -/
theorem escapes_of_checkHashable {type : Json} (given : Datum)
    (h : (Datum.ofJson type).checkHashable = .error e) : Escapes given (Datum.ofJson type) e := by
  cases type with
  | array items =>
    obtain rfl := Except.error.inj h
    exact .array given _
  | object members =>
    obtain rfl := Except.error.inj h
    exact .object given _
  | _ => cases h

/-- JSON can be hashed unless it is an array or an object. -/
theorem checkHashable_ofJson_iff {type : Json} :
    (Datum.ofJson type).checkHashable = .ok () ↔
      (∀ items, Datum.ofJson type ≠ .list items) ∧ ∀ entries, Datum.ofJson type ≠ .dict entries := by
  cases type with
  | array items => exact iff_of_false nofun fun h => h.1 _ rfl
  | object members => exact iff_of_false nofun fun h => h.2 _ rfl
  | _ => exact iff_of_true rfl ⟨nofun, nofun⟩

/-- Of JSON numbers, only an infinity has no whole part. -/
theorem escapes_of_castInteger {value : Json} (h : (Datum.ofJson value).castInteger = .error e) :
    Escapes (Datum.ofJson value) (.text "integer") e := by
  cases value with
  | double x =>
    obtain hwhole | ⟨_, -, hother⟩ := Result.bind_eq_error.mp h
    · unfold Datum.wholeOfDouble at hwhole
      split at hwhole
      · obtain rfl := Except.error.inj hwhole
        exact .infinite _
      · exact absurd hwhole Result.ok_ne_error
    · exact absurd hother Result.ok_ne_error
  | _ => exact absurd h Result.ok_ne_error

/-- The double of a whole number. The two sides are compared as functions, so that no power of two
is computed. -/
theorem doubleOfInt_eq : Datum.doubleOfInt = fun n =>
    match Double.ofInt? n with
    | some x => .ok x
    | none => .error (.outOfRange .integerToDouble) := by
  delta Datum.doubleOfInt
  exact rfl

/-- A whole number has no double if it is too large. -/
theorem doubleOfInt_eq_error {n : Int} (h : Datum.doubleOfInt n = .error e) :
    Double.ofInt? n = none ∧ e = .outOfRange .integerToDouble := by
  simp only [doubleOfInt_eq] at h
  cases hn : Double.ofInt? n with
  | some x =>
    rw [hn] at h
    cases h
  | none =>
    rw [hn] at h
    exact ⟨rfl, (Except.error.inj h).symm⟩

/-- A truth value is not too large for a double. -/
theorem ofInt?_boolean_ne_none (b : Bool) : Double.ofInt? (if b then 1 else 0) ≠ none := by
  cases b <;> decide +kernel

/-- A text has no double if it is no decimal number. -/
theorem doubleOfText_eq_error {given : Datum} {text : String}
    (h : Datum.doubleOfText given text = .error e) : e = .badValue (.notDecimal given) := by
  unfold Datum.doubleOfText at h
  cases hx : Number.readDouble? text with
  | some x =>
    rw [hx] at h
    cases h
  | none =>
    rw [hx] at h
    exact (Except.error.inj h).symm

/-- Of JSON numbers, only a whole number can be too large for a double. -/
theorem escapes_of_castDouble {value : Json} (h : (Datum.ofJson value).castDouble = .error e) :
    Escapes (Datum.ofJson value) (.text "double") e := by
  unfold Datum.castDouble at h
  split at h
  · exact absurd h Result.ok_ne_error
  · next fault hfault =>
    obtain rfl := Except.error.inj h
    clear h
    -- Of JSON only whole numbers can be too large for a double.
    cases value with
    | integer n =>
      obtain ⟨hnone, hrange⟩ := doubleOfInt_eq_error hfault
      obtain rfl := Error.outOfRange.inj hrange
      exact .tooLarge hnone
    | boolean b =>
      obtain ⟨hnone, -⟩ := doubleOfInt_eq_error hfault
      exact absurd hnone (ofInt?_boolean_ne_none b)
    | string s =>
      rw [Datum.ofJson, Datum.toDouble] at hfault
      cases doubleOfText_eq_error hfault
    | _ => cases hfault
  · exact absurd h Result.ok_ne_error

/-- A cast that fails does so with an error that escapes. -/
theorem escapes_of_castTo {value : Json} {t : CastType}
    (h : (Datum.ofJson value).castTo t = .error e) :
    Escapes (Datum.ofJson value) (.text t.name) e := by
  cases t with
  | integer => exact escapes_of_castInteger h
  | double => exact escapes_of_castDouble h
  | _ => exact absurd h Result.ok_ne_error

/-- A cast of JSON data that can be written ends in a query error, but for those that escape. -/
theorem isQueryError_of_cast {value type : Json} (hvalue : (Datum.ofJson value).isWritable = true)
    (htype : (Datum.ofJson type).isWritable = true)
    (h : (Datum.ofJson value).cast (Datum.ofJson type) = .error e) :
    e.isQueryError = true ∨ Escapes (Datum.ofJson value) (Datum.ofJson type) e := by
  have hunknown : (Datum.ofJson type).unknownCast.isQueryError = true := by
    rw [Datum.unknownCast, htype]
    rfl
  unfold Datum.cast at h
  split at h
  · exact absurd h Result.ok_ne_error
  -- A type that cannot be hashed escapes, and one that is unknown is a query error.
  · obtain hhash | ⟨_, -, h⟩ := Result.bind_eq_error.mp h
    · exact .inr (escapes_of_checkHashable _ hhash)
    · split at h
      · next name hnamed =>
        split at h
        · obtain rfl := Except.error.inj h
          exact .inl hunknown
        · next t ht =>
          obtain hcast | ⟨result, -, h⟩ := Result.bind_eq_error.mp h
          · have hname : name = t.name := CastType.eq_name_of_ofName? ht
            rw [hnamed, hname]
            exact .inr (escapes_of_castTo hcast)
          · cases result with
            | some _ => exact absurd h Result.ok_ne_error
            | none =>
              obtain rfl := Except.error.inj h
              rw [Datum.castFailed, hvalue]
              exact .inl rfl
      · obtain rfl := Except.error.inj h
        exact .inl hunknown

/-! ## Texts -/

/-- JSON data that can be written are refused by a query error, but for casts that escape. -/
theorem isQueryError_of_toPredicate (hanswers : AnswersNames allowed) {j : Json}
    (hw : (Datum.ofJson j).isWritable = true) (h : toPredicate allowed (Datum.ofJson j) = .error e) :
    e.isQueryError = true ∨ ∃ given target,
      AsksWithin given target maxPredicateDepth (Datum.ofJson j) ∧ Escapes given target e := by
  obtain hcheck | ⟨_, hcheck, hbuild⟩ := Result.bind_eq_error.mp h
  · obtain hquery | ⟨condition, hwithin, ⟨hasks, hhash⟩ | ⟨hshows, hlong⟩⟩ :=
      isQueryError_of_checkNode hanswers hcheck
    · exact .inl hquery
    · have hasks : AsksWithin _ _ maxPredicateDepth (Datum.ofJson j) := ⟨condition, hwithin, hasks⟩
      obtain ⟨-, type, rfl⟩ := hasks.exists_json
      exact .inr ⟨_, _, hasks, escapes_of_checkHashable _ hhash⟩
    · have hshows : ShowsWithin _ maxPredicateDepth (Datum.ofJson j) := ⟨condition, hwithin, hshows⟩
      cases hlong.symm.trans (hshows.isWritable hw)
  · obtain ⟨given, target, hasks, hcast⟩ := asksWithin_of_buildNode hcheck hbuild
    obtain ⟨hgiven, htarget⟩ := hasks.isWritable hw
    obtain ⟨⟨value, rfl⟩, type, rfl⟩ := hasks.exists_json
    exact (isQueryError_of_cast hgiven htarget hcast).imp_right
      fun hescapes => ⟨_, _, hasks, hescapes⟩

/-- A text is refused by a query error, at a limit of the reader, or for what it writes. -/
theorem cases_of_ofJsonText {text : String} {levels : Nat}
    (h : ofJsonText allowed text levels = .error e) :
    e.isQueryError = true ∨
      (∃ failure, Json.read text levels = .error failure ∧ e = .ofComplaint failure.complaint ∧
        ((∃ count, failure.complaint = .tooManyDigits count) ∨
          ∃ isArray, failure.complaint = .tooDeep isArray)) ∨
      ∃ members, Json.read text levels = .ok (.object members) ∧
        toPredicate allowed (.ofJson (.object members)) = .error e := by
  rw [ofJsonText] at h
  cases hread : Json.read text levels with
  | error failure =>
    rw [hread] at h
    -- Two complaints of the reader are passed on, and all others become query errors.
    cases hcomplaint : failure.complaint with
    | tooManyDigits count =>
      simp only [hcomplaint] at h
      exact .inr (.inl ⟨failure, rfl, hcomplaint ▸ (Except.error.inj h).symm, .inl ⟨count, hcomplaint⟩⟩)
    | tooDeep isArray =>
      simp only [hcomplaint] at h
      exact .inr (.inl ⟨failure, rfl, hcomplaint ▸ (Except.error.inj h).symm, .inr ⟨isArray, hcomplaint⟩⟩)
    | _ =>
      simp only [hcomplaint] at h
      obtain rfl := Except.error.inj h
      exact .inl rfl
  | ok j =>
    rw [hread] at h
    cases j with
    | object members => exact .inr (.inr ⟨members, rfl, h⟩)
    | _ =>
      obtain rfl := Except.error.inj h
      exact .inl rfl

/-- Every text is read as a tree or refused by a query error, but for two kinds of texts: those that
go beyond the limits of the reader, in the levels that the stack has room for or in the digits of a
whole number; and those with a condition whose cast escapes. Validation of what a text writes always
gives its messages, unless some condition has an array or object in the place of a type. -/
theorem ofJsonText_error {allowed : Option AllowedColumns} (hanswers : AnswersNames allowed)
    (text : String) (levels : Nat) :
    (∀ e, ofJsonText allowed text levels = .error e → e.isQueryError = true ∨
      (∃ failure, Json.read text levels = .error failure ∧ e = .ofComplaint failure.complaint ∧
        ((∃ count, failure.complaint = .tooManyDigits count) ∨
          ∃ isArray, failure.complaint = .tooDeep isArray)) ∨
      ∃ j given target, Json.read text levels = .ok j ∧
        AsksWithin given target maxPredicateDepth (.ofJson j) ∧ Escapes given target e) ∧
      ∀ j, Json.read text levels = .ok j →
        ((∃ messages, validate allowed (.ofJson j) = .ok messages) ↔
          ∀ given target, AsksWithin given target maxPredicateDepth (.ofJson j) →
            (∀ items, target ≠ .list items) ∧ ∀ entries, target ≠ .dict entries) := by
  constructor
  · intro e h
    obtain hquery | hlimit | ⟨members, hread, herror⟩ := cases_of_ofJsonText h
    · exact .inl hquery
    · exact .inr (.inl hlimit)
    · have hw := Datum.isWritable_ofJson (Json.readable_of_read hread)
      refine (isQueryError_of_toPredicate hanswers hw herror).imp_right ?_
      rintro ⟨given, target, hasks, hescapes⟩
      exact .inr ⟨_, given, target, hread, hasks, hescapes⟩
  · intro j hread
    -- What was read can be shown in messages.
    have hw := Datum.isWritable_ofJson (Json.readable_of_read hread)
    rw [validate_answers_iff, faults_answers_iff hanswers,
      and_iff_left fun shown hshows => hshows.isWritable hw]
    refine forall₃_congr fun given target hasks => ?_
    obtain ⟨-, type, rfl⟩ := hasks.exists_json
    exact checkHashable_ofJson_iff

/-- An array in the place of a predicate, where a single column may be named. -/
theorem ofJsonText_error_of_array :
    let allowed : Option AllowedColumns := some (.list [.text "n"])
    AnswersNames allowed ∧
      ofJsonText allowed "[]" = .error (.query .jsonNotObject (.text rootPath)) ∧
      Json.read "[]" = .ok (.array []) ∧
      ∃ messages, validate allowed (.ofJson (.array [])) = .ok messages := by
  have hanswers : AnswersNames (some (.list [.text "n"])) := by
    rintro _ ⟨⟩ name
    exact ⟨_, rfl⟩
  have hread : Json.read "[]" = .ok (.array []) :=
    Json.read_write (.array (List.forall_mem_nil _)) (by decide)
  refine ⟨hanswers, ?_, hread, ?_⟩
  · rw [ofJsonText, hread]
  · refine ((ofJsonText_error hanswers "[]" _).2 _ hread).mpr fun given target hasks => ?_
    obtain ⟨_, hwithin, -⟩ := hasks
    cases hwithin

/-- A condition that gives an empty array as the type of its value ends construction and validation in
an error that is no query error. -/
theorem ofJsonText_escapes_array :
    let text :=
      "\x7b\"op\":\"or\",\"params\":[\x7b\"column\":\"n\",\"op\":\"=\",\"value_type\":[]\x7d]\x7d"
    let condition : Json := .object [("column", .string "n"), ("op", .string "="), ("value_type", .array [])]
    let j : Json := .object [("op", .string "or"), ("params", .array [condition])]
    let e : Error := .badType (.unhashable "list")
    Json.read text = .ok j ∧ ofJsonText none text = .error e ∧ validate none (.ofJson j) = .error e ∧
      e.isQueryError = false := by
  intro text condition j e
  have hcondition : condition.Readable := by
    refine .object (by decide) ?_
    simp [Json.Readable.string, Json.Readable.array (List.forall_mem_nil _)]
  have hreadable : j.Readable := by
    refine .object (by decide) ?_
    simp [Json.Readable.string, Json.Readable.array (List.forall_mem_singleton.mpr hcondition)]
  have htext : text = Json.write Json.plain j := by decide +kernel
  have hread : Json.read text = .ok j := htext ▸ Json.read_write hreadable (by decide)
  refine ⟨hread, ?_, rfl, rfl⟩
  rw [ofJsonText, hread]
  rfl

end Form

end RecordStore
