import RecordStore.Document.Connection

/-!
# Clients of a connection

A connection makes a client when it has none, and closes the one that it has. So whatever is asked of it,
in whatever order and whatever fails on the way, the clients that were made and not closed are the one that
it holds, or there are none (`Connection.run_balanced`). To say so, the clients of a driver are numbered in
the order in which they are made, and a ledger tells which of them were closed.
-/

namespace RecordStore

/-! ## Numbered clients -/

/-- What has become of the clients of a driver. -/
structure ClientLedger where
  /-- So many clients were made; they have the numbers below this one. -/
  made : Nat := 0
  /-- The numbers of the clients that were closed, in the order of closing. -/
  closed : List Nat := []

/-- The driver whose clients carry their numbers, and which keeps the ledger. -/
def ClientDriver.numbering {ω κ η : Type} (d : ClientDriver ω κ η) :
    ClientDriver (ω × ClientLedger) (Nat × κ) η where
  connect settings s :=
    match d.connect settings s.1 with
    | (.ok client, w) => (.ok (s.2.made, client), (w, { s.2 with made := s.2.made + 1 }))
    | (.error failure, w) => (.error failure, (w, s.2))
  database client name s :=
    match d.database client.2 name s.1 with
    | (handle, w) => (handle, (w, s.2))
  ping client s :=
    match d.ping client.2 s.1 with
    | (reply, w) => (reply, (w, s.2))
  close client s := (d.close client.2 s.1, { s.2 with closed := s.2.closed ++ [client.1] })

/-- What can be asked of a connection. -/
inductive ConnectionCall
  | connect
  | client
  | database (name : Json)
  | healthCheck
  | close

namespace Connection

variable {ω κ η : Type}

/-- What a call leaves, whatever it answers. -/
def after (d : ClientDriver ω κ η) : ConnectionCall → Connection κ × ω → Connection κ × ω
  | .connect, (c, w) => (c.connect d w).2
  | .client, (c, w) => (c, w)
  | .database name, (c, w) => (c, (c.database d name w).2)
  | .healthCheck, (c, w) => (c, (c.healthCheck d w).2)
  | .close, (c, w) => c.close d w

/-- What calls leave that are made one after the other. -/
def run (d : ClientDriver ω κ η) (calls : List ConnectionCall) (s : Connection κ × ω) :
    Connection κ × ω :=
  calls.foldl (fun s call => after d call s) s

/-- A health check changes nothing but what the ping does. -/
theorem world_healthCheck (d : ClientDriver ω κ η) (c : Connection κ) (w : ω) :
    (c.healthCheck d w).2 = (c.client?.map fun client => (d.ping client w).2).getD w := by
  obtain ⟨settings, _ | client⟩ := c
  · rfl
  · simp only [healthCheck, Option.map_some, Option.getD_some]
    obtain ⟨reply, w'⟩ := d.ping client w
    rcases reply with (_ | _ | _) | _ <;> rfl

/-- The connection and the world without numbers and ledger. -/
def forget (s : Connection (Nat × κ) × (ω × ClientLedger)) : Connection κ × ω :=
  ({ settings := s.1.settings, client? := s.1.client?.map Prod.snd }, s.2.1)

/-- Numbering the clients changes nothing else. -/
theorem forget_after (d : ClientDriver ω κ η) (call : ConnectionCall)
    (s : Connection (Nat × κ) × (ω × ClientLedger)) :
    forget (after d.numbering call s) = after d call (forget s) := by
  obtain ⟨⟨settings, client?⟩, w, ledger⟩ := s
  cases call with
  | connect =>
    cases client? with
    | none =>
      simp only [after, connect, forget, ClientDriver.numbering, Option.map_none]
      obtain ⟨reply, w'⟩ := d.connect settings w
      cases reply <;> rfl
    | some client => rfl
  | healthCheck =>
    simp only [after, forget, world_healthCheck]
    cases client? <;> rfl
  | client => rfl
  | database name | close => cases client? <;> rfl

/-- A run with numbered clients is the run without the numbers. -/
theorem forget_run (d : ClientDriver ω κ η) (calls : List ConnectionCall)
    (s : Connection (Nat × κ) × (ω × ClientLedger)) :
    forget (run d.numbering calls s) = run d calls (forget s) := by
  induction calls generalizing s with
  | nil => rfl
  | cons call rest ih =>
    rw [run, List.foldl_cons, ← run, ih, forget_after]
    rfl

/-! ## At most one live client -/

/-- The ledger of a connection: of the clients that were made, none was closed twice, and all were closed
but the one that the connection holds. -/
structure Balanced (c : Connection (Nat × κ)) (ledger : ClientLedger) : Prop where
  live : ledger.made = ledger.closed.length + if c.client?.isSome then 1 else 0
  once : ledger.closed.Nodup
  made : ∀ n ∈ ledger.closed, n < ledger.made
  held : ∀ client, c.client? = some client → client.1 < ledger.made ∧ client.1 ∉ ledger.closed

/-- Before the first call nothing is open. -/
theorem balanced_unconnected (settings : ConnectionSettings) :
    Balanced (κ := κ) { settings } {} where
  live := rfl
  once := List.nodup_nil
  made := nofun
  held := nofun

variable {d : ClientDriver ω κ η} {c : Connection (Nat × κ)} {w : ω × ClientLedger}

/-- Asking for the database opens and closes no client. -/
theorem ledger_database (name : Json) : (c.database d.numbering name w).2.2 = w.2 := by
  obtain ⟨settings, _ | client⟩ := c <;> rfl

/-- A health check opens and closes no client. -/
theorem ledger_healthCheck : (c.healthCheck d.numbering w).2.2 = w.2 := by
  rw [world_healthCheck]
  obtain ⟨settings, _ | client⟩ := c <;> rfl

/-- A connection that is made keeps the balance, whether it fails or not. -/
theorem Balanced.connect (h : c.Balanced w.2) :
    (c.connect d.numbering w).2.1.Balanced (c.connect d.numbering w).2.2.2 := by
  obtain ⟨settings, _ | client⟩ := c
  · simp only [Connection.connect, ClientDriver.numbering]
    obtain ⟨reply, w'⟩ := d.connect settings w.1
    cases reply with
    | error failure => exact h
    | ok client =>
      -- The new client has the first number that was not given yet.
      have hfresh : w.2.made ∉ w.2.closed := fun hmem => Nat.lt_irrefl _ (h.made _ hmem)
      refine ⟨?_, h.once, fun n hn => Nat.lt_succ_of_lt (h.made n hn), ?_⟩
      · simpa using h.live
      · rintro held ⟨⟩
        exact ⟨Nat.lt_succ_self _, hfresh⟩
  · exact h

/-- Closing keeps the balance. -/
theorem Balanced.close (h : c.Balanced w.2) :
    (c.close d.numbering w).1.Balanced (c.close d.numbering w).2.2 := by
  obtain ⟨settings, _ | client⟩ := c
  · exact h
  · obtain ⟨hmade, hopen⟩ := h.held client rfl
    refine ⟨?_, ?_, ?_, nofun⟩
    · have hlive := h.live
      simpa [Connection.close, ClientDriver.numbering] using hlive
    · exact (List.perm_append_singleton _ _).nodup_iff.mpr (List.nodup_cons.mpr ⟨hopen, h.once⟩)
    · intro n hn
      rcases List.mem_append.mp hn with hbefore | hnow
      · exact h.made n hbefore
      · rw [List.mem_singleton.mp hnow]
        exact hmade

/-- Every call keeps the balance. -/
theorem Balanced.after (h : c.Balanced w.2) (call : ConnectionCall) :
    (after d.numbering call (c, w)).1.Balanced (after d.numbering call (c, w)).2.2 := by
  cases call with
  | connect => exact h.connect
  | client => exact h
  | database name =>
    rw [← ledger_database (d := d) name] at h
    exact h
  | healthCheck =>
    rw [← ledger_healthCheck (d := d)] at h
    exact h
  | close => exact h.close

/-- A run of calls keeps the balance. -/
theorem Balanced.run (h : c.Balanced w.2) (calls : List ConnectionCall) :
    (run d.numbering calls (c, w)).1.Balanced (run d.numbering calls (c, w)).2.2 := by
  induction calls generalizing c w with
  | nil => exact h
  | cons call rest ih => exact ih (h.after call)

/-! ## What a connection answers -/

/-- What a connection answers when its driver is in a state. -/
structure Answers (d : ClientDriver ω κ η) (c : Connection κ) (w : ω) : Prop where
  /-- Where there is a client, connecting hands it out and makes none. -/
  connected : ∀ client, c.client? = some client → c.connect d w = (.ok client, c, w)
  /-- A client that is made is handed out and held. -/
  made : ∀ client w', c.client? = none → d.connect c.settings w = (.ok client, w') →
    c.connect d w = (.ok client, { c with client? := some client }, w')
  /-- A client that cannot be made, because of the database or of a bad argument, is a connection
  error, and there is no client afterwards. -/
  refused : ∀ failure w', c.client? = none → d.connect c.settings w = (.error failure, w') →
    (∀ e, failure = .other e → isBadArgument e = true) →
    ∃ text, c.connect d w = (.error (.document .connection (.stated text)), c, w')
  /-- Asking for the client is a connection error exactly if there is none. -/
  client : ∀ e, c.client = .error e ↔ c.client? = none ∧ e = .document .connection .notConnected
  /-- Asking for a database is a connection error exactly if there is no client. -/
  database : ∀ name e, (c.database d name w).1 = .error e ↔
    c.client? = none ∧ e = .document .connection .notConnected
  /-- The database answers exactly if there is a client whose ping succeeds. -/
  healthy : (c.healthCheck d w).1 = .ok true ↔
    ∃ client, c.client? = some client ∧ (d.ping client w).1 = .ok ()
  /-- A ping that fails because of the database is no error of the health check. -/
  unhealthy : (∀ client e, c.client? = some client → (d.ping client w).1 ≠ .error (.other e)) →
    ∃ alive, (c.healthCheck d w).1 = .ok alive

theorem answers_unconnected (d : ClientDriver ω κ η) (settings : ConnectionSettings) (w : ω) :
    Answers d { settings } w where
  connected := nofun
  made client w' _ hmade := by simp only [connect, hmade]
  refused failure w' _ hfails hforeseen := by
    simp only [connect, hfails]
    cases failure with
    | lost text | refused text => exact ⟨text, rfl⟩
    | other e =>
      rw [connectError, if_pos (hforeseen e rfl)]
      exact ⟨e.message, rfl⟩
  client e := by
    rw [Connection.client]
    exact ⟨fun h => ⟨rfl, (Except.error.inj h).symm⟩, fun h => congrArg _ h.2.symm⟩
  database name e := ⟨fun h => ⟨rfl, (Except.error.inj h).symm⟩, fun h => congrArg _ h.2.symm⟩
  healthy := iff_of_false nofun nofun
  unhealthy _ := ⟨false, rfl⟩

theorem answers_connected (d : ClientDriver ω κ η) (settings : ConnectionSettings) (client : κ) (w : ω) :
    Answers d { settings, client? := some client } w where
  connected other hother := by
    obtain rfl := Option.some.inj hother
    rfl
  made := nofun
  refused := nofun
  client e := iff_of_false nofun nofun
  database name e := iff_of_false nofun nofun
  healthy := by
    simp only [healthCheck, Option.some.injEq, exists_eq_left']
    obtain ⟨reply, w'⟩ := d.ping client w
    -- The reply of the server, or the error that the driver foresees.
    rcases reply with (_ | _ | _) | _
    case ok => exact iff_of_true rfl rfl
    all_goals exact iff_of_false nofun nofun
  unhealthy hforeseen := by
    have hping (e : Error) : (d.ping client w).1 ≠ .error (.other e) := hforeseen client e rfl
    simp only [healthCheck]
    generalize d.ping client w = answer at hping ⊢
    obtain ⟨(_ | _ | e) | _, w'⟩ := answer
    case error.other => exact absurd rfl (hping e)
    case ok => exact ⟨true, rfl⟩
    all_goals exact ⟨false, rfl⟩

/-- What a connection answers in every state. -/
theorem answers (d : ClientDriver ω κ η) (c : Connection κ) (w : ω) : Answers d c w := by
  obtain ⟨settings, _ | client⟩ := c
  · exact answers_unconnected d settings w
  · exact answers_connected d settings client w

/-- Let any calls be made of a connection that is not yet connected, with a driver that answers them
in any way. Numbering the clients changes nothing of the run. Of the clients that were made, all
were closed, each once, but the one that the connection holds; there is such a client exactly while
it is connected. In every state that is reached in this way, connecting, asking for the client or
for a database, and the health check answer as `Answers` says, and the health check neither makes
nor closes a client. -/
theorem run_balanced (d : ClientDriver ω κ η) (settings : ConnectionSettings) (w : ω)
    (calls : List ConnectionCall) :
    let s := run d.numbering calls ({ settings }, (w, {}))
    forget s = run d calls ({ settings }, w) ∧ s.1.Balanced s.2.2 ∧ Answers d.numbering s.1 s.2 ∧
      (s.1.healthCheck d.numbering s.2).2.2 = s.2.2 := by
  intro s
  refine ⟨forget_run d calls _, ?_, answers d.numbering s.1 s.2, ledger_healthCheck⟩
  exact Balanced.run (w := (w, {})) (balanced_unconnected settings) calls

/-- A connection that is connected twice, checked, closed twice and connected again has closed its first
client and holds the second one; and one whose client cannot be made, as an argument is bad, is not
connected. -/
theorem run_balanced_scripted :
    let d := ClientScript.driver.numbering
    let s := run d [.connect, .connect, .healthCheck, .close, .close, .connect]
      ({ settings := {} }, ({}, {}))
    let bad : ClientScript := { connectFailure := some (.other (.badValue (.stated "bad client"))) }
    let c : Connection (Nat × Nat) := { settings := {} }
    (s.2.2.made = 2 ∧ s.2.2.closed = [0] ∧ s.1.Balanced s.2.2) ∧
      ∃ text w, c.connect d (bad, {}) = (.error (.document .connection (.stated text)), c, w) := by
  intro d s bad c
  refine ⟨⟨rfl, rfl, (run_balanced ClientScript.driver {} {} _).2.1⟩, ?_⟩
  obtain ⟨-, -, hanswers, -⟩ := run_balanced ClientScript.driver {} bad []
  obtain ⟨text, hconnect⟩ := hanswers.refused _ _ rfl rfl fun e he => by
    cases he
    rfl
  exact ⟨text, _, hconnect⟩

end Connection

end RecordStore
