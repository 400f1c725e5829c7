import DocScan.Reader

/-!
# Readers as they are kept

A reader keeps its state, its connection, its cursor and the documents that
were looked ahead side by side, and changes them one after the other.  Nothing
in the record says which of them go together.  Opening is refused by the state,
and reading by the cursor.
-/

namespace DocScan

/-- A reader with its state, the connection and the position of the cursor while
it has them, and the documents that were looked ahead. -/
structure RawReader where
  config : Config
  columns : List String
  filters : List Filter
  state : ReaderState
  connection : Option Connection
  cursor : Option Nat
  buffer : List Value

namespace RawReader

def fresh (config : Config) (columns : List String) (filters : List Filter) : RawReader :=
  ⟨config, columns, filters, .uninitialized, none, none, []⟩

def withState (r : RawReader) (state : ReaderState) : RawReader := { r with state := state }

def withConnection (r : RawReader) (connection : Option Connection) : RawReader :=
  { r with connection := connection }

def withCursor (r : RawReader) (cursor : Option Nat) : RawReader := { r with cursor := cursor }

def withBuffer (r : RawReader) (buffer : List Value) : RawReader := { r with buffer := buffer }

/-! ## Opening -/

/-- What is to be read, as a reader that was not opened. -/
def unopened (r : RawReader) : Reader := .fresh r.config r.columns r.filters

/-- A step of opening, which works on what is to be read. -/
def opening {α : Type} (x : Act Reader α) : Act RawReader α :=
  Act.focus unopened (fun r after => { r with filters := after.filters }) x

def init (p : Partition) : Act RawReader Unit := do
  let r ← Act.get
  if r.state ≠ .uninitialized then Act.fail (.notInitializable r.state)
  else
    let (_, connection, query, projection) ← opening (Reader.establish p)
    Act.modify (·.withConnection (some connection))
    Act.modify (·.withCursor (some 0))
    Act.modify (·.withState .initialized)
    opening (Reader.logOpened p query projection)

/-! ## Closing -/

def closeCursor (cursor : Option Nat) : Act RawReader Unit := do
  if cursor.isSome then Act.reach .cursorClose .cursorClose

def closeConnection (connection : Option Connection) : Act RawReader Unit := do
  if let some c := connection then
    discard <| Act.within c Connection.close

/-- Takes everything from the reader before anything is released.  The
connection is closed even if the cursor cannot be, and of two failures the
later one is reported. -/
def close : Act RawReader Unit := do
  let r ← Act.get
  Act.modify (·.withCursor none)
  Act.modify (·.withConnection none)
  Act.modify (·.withBuffer [])
  if r.state ≠ .closed then
    Act.log (.closing r.state.text)
  Act.modify (·.withState .closed)
  let released ← (closeCursor r.cursor).attempt
  closeConnection r.connection
  Act.ofExcept released

/-! ## Reading -/

/-- Asks the cursor for its next document. -/
def fetch (position : Nat) : Act RawReader (Option Value) := do
  match ← Act.fetch position with
  | none => return none
  | some document =>
    Act.modify (·.withCursor (some (position + 1)))
    return some document

/-- Whether there is another document, which is then looked ahead. -/
def hasNext : Act RawReader Bool := do
  let r ← Act.get
  match r.buffer, r.cursor with
  | _ :: _, _ => return true
  | [], none => return false
  | [], some position =>
    match ← (fetch position).orEnd with
    | none => return false
    | some document =>
      Act.modify fun r => r.withBuffer (r.buffer ++ [document])
      return true

def next : Act RawReader Value := do
  let r ← Act.get
  match r.cursor with
  | none => Act.fail .noCursor
  | some position =>
    match r.buffer.getLast? with
    | some document =>
      Act.modify fun r => r.withBuffer r.buffer.dropLast
      return document
    | none =>
      match ← fetch position with
      | some document => return document
      | none => Act.fail .exhausted

end RawReader

end DocScan
