import DocScan.Act

/-!
# Connections

A connection makes its client when it is first asked to connect, keeps it,
and closes it once.  The server is addressed through the client that is kept.
What goes wrong while the client is made or addressed is reported as a
failure of the connection; interrupts pass through as they are.
-/

namespace DocScan

/-- A connection to the hosts of a partition, with the number of its client
while it has one. -/
structure Connection where
  hosts : List String
  credentials : List Credentials
  serverSelectionTimeout : Value
  connectTimeout : Value
  options : List (String × Value)
  client : Option Nat

namespace Connection

def unconnected (hosts : List String) (credentials : List Credentials)
    (serverSelectionTimeout connectTimeout : Value) (options : List (String × Value)) :
    Connection :=
  ⟨hosts, credentials, serverSelectionTimeout, connectTimeout, options, none⟩

/-- The options that give the timeouts; others go to the client. -/
def timeoutNames : List String := ["server_selection_timeout_ms", "connect_timeout_ms"]

/-- A connection whose timeouts are given among its options, if at all. -/
def ofOptions (hosts : List String) (credentials : List Credentials)
    (options : List (String × Value)) : Connection :=
  let given := fun name (default : Int) =>
    ((options.find? fun option => option.1 = name).map Prod.snd).getD (.int default)
  unconnected hosts credentials (given "server_selection_timeout_ms" 5000)
    (given "connect_timeout_ms" 10000)
    (options.filter fun option => !timeoutNames.contains option.1)

def authOptions (c : Connection) : List (String × Value) :=
  match c.credentials with
  | [] => []
  | user :: _ =>
    [("username", .text user.user), ("password", .text user.password),
      ("authSource", .text user.database)]

/-- The options that the connection gives to the client itself. -/
def ownOptions (c : Connection) : List (String × Value) :=
  [("serverSelectionTimeoutMS", c.serverSelectionTimeout),
    ("connectTimeoutMS", c.connectTimeout)] ++ c.authOptions

/-- The first further option that repeats one of the connection's own. -/
def repeatedOption? (c : Connection) : Option String :=
  (c.options.map Prod.fst).find? fun name => (c.ownOptions.map Prod.fst).contains name

/-- A step whose ordinary failures are those of the connection. -/
def wrapping {σ α : Type} (x : Act σ α) : Act σ α := do
  match ← x.attempt with
  | .ok a => return a
  | .error e => Act.fail (if e.isInterrupt then e else .connection e)

/-- Notes that of several users only the first one authenticates. -/
def noteExtraCredentials (c : Connection) : Act Connection Unit :=
  if 1 < c.credentials.length then Act.log (.extraCredentials (c.credentials.length - 1))
  else pure ()

def makeClient (c : Connection) : Act Connection Nat := do
  c.noteExtraCredentials
  match c.repeatedOption? with
  | some key => Act.fail (.clash .client key)
  | none =>
    Act.reach .factory (.factory c.hosts (c.ownOptions ++ c.options))
    Act.newClient

/-- The client, made now if there is none. -/
def connect : Act Connection Nat := do
  let c ← Act.get
  match c.client with
  | some n => return n
  | none =>
    let n ← wrapping c.makeClient
    Act.set { c with client := some n }
    Act.log (.connected c.hosts)
    return n

def keptClient : Act Connection Nat := do
  match (← Act.get).client with
  | some n => return n
  | none => Act.fail .notConnected

/-- Addresses the server once.  A failure of the connection stays as it is. -/
def ping : Act Connection Unit := do
  let n ← keptClient
  match ← (Act.reach .command (.command n)).attempt with
  | .ok () => return ()
  | .error e => Act.fail (if e.isInterrupt || e.isConnection then e else .connection e)

def healthCheck : Act Connection Bool := do
  match ← ping.attempt with
  | .ok () => return true
  | .error e => if e.isConnection then return false else Act.fail e

/-- Closes the client, which is no longer kept even if that fails. -/
def close : Act Connection Unit := do
  let c ← Act.get
  match c.client with
  | none => return ()
  | some n =>
    Act.set { c with client := none }
    Act.reach .clientClose (.clientClose n)

/-- What can be asked of a connection. -/
inductive Command where
  | connect
  | client
  | ping
  | healthCheck
  | close
  deriving DecidableEq, Repr

/-- The answers of a connection. -/
inductive Answer where
  | done
  | client (n : Nat)
  | healthy (b : Bool)
  deriving DecidableEq, Repr

def perform : Command → Act Connection Answer
  | .connect => do return .client (← connect)
  | .client => do return .client (← keptClient)
  | .ping => do
    ping
    return .done
  | .healthCheck => do return .healthy (← healthCheck)
  | .close => do
    close
    return .done

end Connection

end DocScan
