import RecordStore.Backend
import RecordStore.Document.Database

/-!
# Connections

A connection to a document database: settings, and a client once it has been connected. Connecting
again hands out the same client; closing lets go of it, and closing again does nothing. So at most
one client is open at a time.
-/

namespace RecordStore

/-- How a client reaches its database; times are in milliseconds. Settings are handed to the client
as they were given. -/
structure ConnectionSettings where
  url : Json := .string "mongodb://localhost:27017"
  serverSelectionTimeout : Json := .integer 5000
  connectTimeout : Json := .integer 10000
  /-- Further settings by name. -/
  options : List (String × Json) := []

namespace ConnectionSettings

/-- The settings by the names that a client knows them by. -/
def named (s : ConnectionSettings) : List (String × Json) :=
  [("serverSelectionTimeoutMS", s.serverSelectionTimeout),
    ("connectTimeoutMS", s.connectTimeout)] ++ s.options

/-- The settings with one changed by its name; a name that is not known is passed on to the client.
-/
def set (s : ConnectionSettings) (name : String) (option : Json) : ConnectionSettings :=
  match name with
  | "url" => { s with url := option }
  | "server_selection_timeout_ms" => { s with serverSelectionTimeout := option }
  | "connect_timeout_ms" => { s with connectTimeout := option }
  | _ => { s with options := s.options ++ [(name, option)] }

/-- The arguments that settings are made of. -/
def signature : Signature :=
  { callee := "MongoConnectionManager.__init__", optional := ["url"],
    named := ["server_selection_timeout_ms", "connect_timeout_ms"] }

/-- The settings of arguments by position, of which there may be one, and others by name. -/
def make (given : List Json) (named : List (String × Json)) : Except Error ConnectionSettings :=
  match signature.fault? given.length (named.map Prod.fst) with
  | some fault => .error (.badType (.arguments fault))
  | none =>
    .ok ((signature.positions.zip given ++ named).foldl (fun s option => s.set option.1 option.2) {})

end ConnectionSettings

/-- What a connection needs of the clients `κ` of a database, whose handles are `η` and whose world
has the states `ω`. -/
structure ClientDriver (ω κ η : Type) where
  connect : ConnectionSettings → ω → DatabaseReply ω κ
  database : κ → Json → ω → η × ω
  ping : κ → ω → DatabaseReply ω Unit
  close : κ → ω → ω

/-- A connection: how to make a client, and the client while there is one. -/
structure Connection (κ : Type) where
  settings : ConnectionSettings
  client? : Option κ := none

namespace Connection

variable {ω κ η : Type}

/-- Whether an error says that an argument is of the wrong type or value. -/
def isBadArgument : Error → Bool
  | .badType _ | .badValue _ | .notText _ => true
  | _ => false

/-- The error of a client that cannot be made. -/
def connectError : DatabaseFailure → Error
  | .lost text | .refused text => .document .connection (.stated text)
  | .other e => if isBadArgument e then .document .connection (.stated e.message) else e

/-- The client, made if there is none. -/
def connect (d : ClientDriver ω κ η) (c : Connection κ) (w : ω) :
    Except Error κ × Connection κ × ω :=
  match c.client? with
  | some client => (.ok client, c, w)
  | none =>
    match d.connect c.settings w with
    | (.ok client, w) => (.ok client, { c with client? := some client }, w)
    | (.error failure, w) => (.error (connectError failure), c, w)

/-- The client; it is an error if there is none. -/
def client (c : Connection κ) : Except Error κ :=
  match c.client? with
  | some client => .ok client
  | none => .error (.document .connection .notConnected)

/-- The handle of a database by its name. -/
def database (d : ClientDriver ω κ η) (c : Connection κ) (name : Json) (w : ω) : Outcome ω η :=
  match c.client with
  | .error e => (.error e, w)
  | .ok client =>
    match d.database client name w with
    | (handle, w) => (.ok handle, w)

/-- Whether the database answers. -/
def healthCheck (d : ClientDriver ω κ η) (c : Connection κ) (w : ω) : Outcome ω Bool :=
  match c.client? with
  | none => (.ok false, w)
  | some client =>
    match d.ping client w with
    | (.ok (), w) => (.ok true, w)
    | (.error (.lost _), w) | (.error (.refused _), w) => (.ok false, w)
    | (.error (.other e), w) => (.error e, w)

/-- Closes the client if there is one. -/
def close (d : ClientDriver ω κ η) (c : Connection κ) (w : ω) : Connection κ × ω :=
  match c.client? with
  | none => (c, w)
  | some client => ({ c with client? := none }, d.close client w)

end Connection

/-- A call that a connection makes; clients are numbered in the order in which they are made. -/
inductive ClientCall
  | connect (settings : ConnectionSettings)
  | database (client : Nat) (name : Json)
  | ping (client : Nat)
  | close (client : Nat)

/-- A scripted world of clients: which calls are to fail, how many clients there have been, and the
calls so far. -/
structure ClientScript where
  connectFailure : Option DatabaseFailure := none
  pingFailure : Option DatabaseFailure := none
  clients : Nat := 0
  calls : List ClientCall := []

namespace ClientScript

/-- Writes down a call. -/
def note (call : ClientCall) (s : ClientScript) : ClientScript := { s with calls := s.calls ++ [call] }

/-- A driver whose clients are numbers and whose handles are texts. -/
def driver : ClientDriver ClientScript Nat String where
  connect settings s :=
    let s := s.note (.connect settings)
    match s.connectFailure with
    | some failure => (.error failure, s)
    | none => (.ok s.clients, { s with clients := s.clients + 1 })
  database client name s := ("db:" ++ name.display, s.note (.database client name))
  ping client s :=
    let s := s.note (.ping client)
    match s.pingFailure with
    | some failure => (.error failure, s)
    | none => (.ok (), s)
  close client s := s.note (.close client)

end ClientScript

end RecordStore
