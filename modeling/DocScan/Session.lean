import DocScan.RawReader

/-!
# Sessions with a reader

A session uses one reader in any way its users like, through any number of
named iterators as well.  An iterator draws from the reader when it is asked
to.  Once it has found the end or met a failure it gives nothing more.  What
the reader is made of does not matter to a session.
-/

namespace DocScan

/-- What can be done with a reader of a partition. -/
class PartitionReader (ρ : Type) where
  init : Partition → Act ρ Unit
  hasNext : Act ρ Bool
  next : Act ρ Value
  close : Act ρ Unit

instance : PartitionReader Reader := ⟨Reader.init, Reader.hasNext, Reader.next, Reader.close⟩

instance : PartitionReader RawReader :=
  ⟨RawReader.init, RawReader.hasNext, RawReader.next, RawReader.close⟩

/-- A reader with its iterators, each running or ended. -/
structure SessionOf (ρ : Type) where
  reader : ρ
  iterators : List (String × Bool)

/-- A session with a reader that holds what belongs to its phase. -/
abbrev Session := SessionOf Reader

/-- A session with a reader as it is kept. -/
abbrev RawSession := SessionOf RawReader

namespace Session

/-- What can be asked in a session. -/
inductive Command where
  | init (partition : Value)
  | hasNext
  | next
  | list
  | iter (name : String)
  | iterNext (name : String)
  | enter
  | exit
  | close

/-- The answers of a session. -/
inductive Answer where
  | done
  | flag (b : Bool)
  | document (v : Value)
  | documents (vs : List Value)

end Session

namespace SessionOf

open Session (Command Answer)

variable {ρ : Type}

def start (reader : ρ) : SessionOf ρ := ⟨reader, []⟩

/-- A step of the reader as one of the session. -/
def onReader {α : Type} (x : Act ρ α) : Act (SessionOf ρ) α :=
  Act.focus SessionOf.reader (fun s r => { s with reader := r }) x

/-- Whether an iterator of the given name is running. -/
def isRunning (s : SessionOf ρ) (name : String) : Bool :=
  s.iterators.any fun iterator => iterator.1 = name && iterator.2

/-- The session with an iterator of the given name, running or ended, in place
of the one that had the name. -/
def withIterator (s : SessionOf ρ) (name : String) (running : Bool) : SessionOf ρ :=
  { s with iterators := (name, running) :: s.iterators.filter fun iterator => iterator.1 ≠ name }

variable [PartitionReader ρ]

/-- The next document if there is one, as an iterator draws it. -/
def draw : Act ρ (Option Value) := Act.drawing PartitionReader.hasNext PartitionReader.next

/-- Opens the reader on a partition that is yet to be checked. -/
def init (data : Value) : Act (SessionOf ρ) Unit := do
  match Partition.ofArguments data with
  | .error e => Act.fail (.partition e)
  | .ok p => onReader (PartitionReader.init p)

def iterNext (name : String) : Act (SessionOf ρ) Value := do
  if (← Act.get).isRunning name then
    match ← (onReader draw).attempt with
    | .ok (some document) => return document
    | .ok none =>
      Act.modify (·.withIterator name false)
      Act.fail .exhausted
    | .error failure =>
      Act.modify (·.withIterator name false)
      Act.fail failure
  else Act.fail .exhausted

/-- Carries out a command.  Leaving the scope of a reader closes it, whether or
not it is left by a failure. -/
def perform : Command → Act (SessionOf ρ) Answer
  | .init data => do
    init data
    return .done
  | .hasNext => do return .flag (← onReader PartitionReader.hasNext)
  | .next => do return .document (← onReader PartitionReader.next)
  | .list => do return .documents (← onReader (Act.drawAll draw))
  | .iter name => do
    Act.modify (·.withIterator name true)
    return .done
  | .iterNext name => do return .document (← iterNext name)
  | .enter => return .flag true
  | .exit | .close => do
    onReader PartitionReader.close
    return .done

end SessionOf

namespace Session

abbrev start (reader : Reader) : Session := SessionOf.start reader

abbrev perform : Command → Act Session Answer := SessionOf.perform

end Session

end DocScan
