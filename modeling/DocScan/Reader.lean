import DocScan.Connection
import DocScan.Query.Retained

/-!
# Readers

A reader reads the documents of one partition.  It is opened once, through a
connection of its own; it then gives documents one at a time, with at most one
document looked ahead; and it is closed once, cursor first.  Whatever fails
while it is opened closes the connection again, except that an interrupt
leaves everything as it is.
-/

namespace DocScan

/-- A cursor: the number of documents it has given, and the document that was
looked ahead. -/
structure Cursor where
  position : Nat
  lookahead : Option Value
  deriving DecidableEq

/-- What a reader holds in each of its states. -/
inductive ReaderPhase where
  | idle
  | opened (client : Nat) (cursor : Cursor)
  | closed
  deriving DecidableEq

/-- A reader with what it reads. -/
structure Reader where
  config : Config
  columns : List String
  filters : List Filter
  phase : ReaderPhase

def ReaderPhase.state : ReaderPhase → ReaderState
  | .idle => .uninitialized
  | .opened _ _ => .initialized
  | .closed => .closed

namespace Reader

def fresh (config : Config) (columns : List String) (filters : List Filter) : Reader :=
  ⟨config, columns, filters, .idle⟩

def state (r : Reader) : ReaderState := r.phase.state

def withPhase (r : Reader) (phase : ReaderPhase) : Reader := { r with phase := phase }

/-! ## Opening -/

/-- The settings of a connection that have names of their own. -/
def connectionKeywords : List String :=
  ["server_selection_timeout_ms", "connect_timeout_ms", "client_factory"]

/-- The settings of a connection that are given by place. -/
def connectionPositions : List String := ["self", "hosts", "credentials"]

/-- The first option of the client that takes the name of a setting of the
connection; names of their own come first. -/
def clash? (options : List (String × Value)) : Option Failure :=
  let names := options.map Prod.fst
  match names.find? connectionKeywords.contains with
  | some key => some (.clash .connectionKeyword key)
  | none =>
    match names.find? connectionPositions.contains with
    | some key => some (.clash .connectionPositional key)
    | none => none

/-- The connection to the hosts of a partition. -/
def connectionTo (r : Reader) (hosts : List String) : Connection :=
  .unconnected hosts r.config.credentials (.int r.config.serverSelectionTimeout)
    (.int r.config.connectTimeout) r.config.clientOptions

def connect (p : Partition) : Act Reader (Nat × Connection) := do
  let r ← Act.get
  match clash? r.config.clientOptions with
  | some failure => Act.fail failure
  | none => Act.within (r.connectionTo p.hosts) Connection.connect

def compile : Act Reader Query := do
  let r ← Act.get
  match Query.ofFilters r.config.idField r.filters with
  | .error e => Act.fail (.compilation e)
  | .ok q =>
    Act.set { r with filters := Query.retained r.config.idField q r.filters }
    return q

/-- Restricts the cursor to a range of index keys. -/
def restrict (range : KeyRange) : Act Reader Unit := do
  if range.isBounded then
    Act.reach .hint (.hint range.indexKey)
    if let some bound := KeyRange.effective range.lower then
      Act.reach .min (.min bound)
    if let some bound := KeyRange.effective range.upper then
      Act.reach .max (.max bound)

/-- Opens the cursor of a partition through a client. -/
def openCursor (connection : Connection) (client : Nat) (p : Partition) :
    Act Reader (Query × Option Projection) := do
  let config := (← Act.get).config
  discard <| Act.within connection Connection.ping
  Act.reach .database (.database client config.database)
  Act.reach .collection (.collection config.database config.collection)
  let query ← compile
  let projection := Projection.ofFields? config.idField (← Act.get).columns
  Act.reach .find (.find query projection)
  if let some n := config.batchSize then
    Act.reach .batchSize (.batchSize n)
  restrict p.range
  return (query, projection)

/-- Gives up opening a partition after a failure. -/
def giveUp {α : Type} (p : Partition) (connection : Option Connection) (failure : Failure) :
    Act Reader α := do
  if failure.isInterrupt then Act.fail failure
  else
    Act.log (.openFailed p.index failure.message)
    if let some c := connection then
      discard <| Act.within c Connection.close
    Act.fail (.opening failure)

/-- Connects to the hosts of a partition and opens its cursor. -/
def establish (p : Partition) : Act Reader (Nat × Connection × Query × Option Projection) := do
  match ← (connect p).attempt with
  | .error failure => giveUp p none failure
  | .ok (client, connection) =>
    match ← (openCursor connection client p).attempt with
    | .error failure => giveUp p (some connection) failure
    | .ok (query, projection) => return (client, connection, query, projection)

def logOpened (p : Partition) (query : Query) (projection : Option Projection) :
    Act Reader Unit := do
  let config := (← Act.get).config
  Act.log (.opened config.database config.collection p.index (query.entries.map Prod.fst)
    ((projection.getD []).map Prod.fst))

def init (p : Partition) : Act Reader Unit := do
  let r ← Act.get
  match r.phase with
  | .idle =>
    let (client, _, query, projection) ← establish p
    Act.set ((← Act.get).withPhase (.opened client ⟨0, none⟩))
    logOpened p query projection
  | phase => Act.fail (.notInitializable phase.state)

/-! ## Closing -/

/-- Closes the cursor and then the client.  The client is closed even if the
cursor cannot be, and of two failures the later one is reported. -/
def release (client : Nat) : Act Reader Unit := do
  let cursor ← (Act.reach .cursorClose .cursorClose).attempt
  Act.reach .clientClose (.clientClose client)
  Act.ofExcept cursor

def close : Act Reader Unit := do
  let r ← Act.get
  match r.phase with
  | .closed => return ()
  | .idle =>
    Act.set (r.withPhase .closed)
    Act.log (.closing r.state.text)
  | .opened client _ =>
    Act.set (r.withPhase .closed)
    Act.log (.closing r.state.text)
    release client

/-! ## Reading -/

/-- Asks the cursor for its next document. -/
def fetch (client : Nat) (position : Nat) : Act Reader (Option Value) := do
  match ← Act.fetch position with
  | none => return none
  | some document =>
    Act.set ((← Act.get).withPhase (.opened client ⟨position + 1, none⟩))
    return some document

/-- Whether there is another document, which is then looked ahead. -/
def hasNext : Act Reader Bool := do
  match (← Act.get).phase with
  | .opened client ⟨position, none⟩ =>
    match ← (fetch client position).orEnd with
    | none => return false
    | some document =>
      Act.set ((← Act.get).withPhase (.opened client ⟨position + 1, some document⟩))
      return true
  | .opened _ ⟨_, some _⟩ => return true
  | _ => return false

def next : Act Reader Value := do
  let r ← Act.get
  match r.phase with
  | .opened client ⟨position, some document⟩ =>
    Act.set (r.withPhase (.opened client ⟨position, none⟩))
    return document
  | .opened client ⟨position, none⟩ =>
    match ← fetch client position with
    | some document => return document
    | none => Act.fail .exhausted
  | _ => Act.fail .noCursor

/-- The next document if there is one, as an iterator draws it. -/
def draw : Act Reader (Option Value) := Act.drawing hasNext next

/-- The remaining documents. -/
def drawAll : Act Reader (List Value) := Act.drawAll draw

end Reader

end DocScan
