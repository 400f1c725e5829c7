import DocScan.Reader

/-!
# Scans of a partition

A scan gives the documents of one partition and takes care of the reader.
Nothing happens before the first draw.  The reader is closed as soon as
opening it or a draw fails, the documents end, or the scan is stopped; then
the scan has ended and stays so.  As an exhaustion is how a scan shows its own
end, one that is reported elsewhere than in a draw is a failure of its own.
-/

namespace DocScan

/-- A configuration, or a mapping that is yet to be checked. -/
inductive ConfigSource where
  | checked (config : Config)
  | mapping (data : Value)

def ConfigSource.resolve : ConfigSource → Except ConfigError Config
  | .checked config => .ok config
  | .mapping data => Config.ofMapping data

/-- How far a scan has come. -/
inductive ScanPhase where
  | waiting
  | running (reader : Reader)
  | ended

/-- A scan of a partition. -/
structure Scan where
  config : ConfigSource
  columns : List String
  filters : List Filter
  partition : Partition
  phase : ScanPhase

namespace Scan

def waiting (config : ConfigSource) (columns : List String) (filters : List Filter)
    (partition : Partition) : Scan :=
  ⟨config, columns, filters, partition, .waiting⟩

def withPhase (s : Scan) (phase : ScanPhase) : Scan := { s with phase := phase }

def finish : Act Scan Unit := do
  Act.set ((← Act.get).withPhase .ended)

def failWith {α : Type} (failure : Failure) : Act Scan α :=
  Act.fail (if failure.isExhaustion then .misplacedEnd else failure)

def release (reader : Reader) : Act Scan Unit := do
  finish
  match ← (Act.within reader Reader.close).attempt with
  | .ok _ => return ()
  | .error failure => failWith failure

/-- Runs a step of the scan's reader.  If it fails, the scan ends; a failure
to close the reader is reported in its place. -/
def onReader {α : Type} (reader : Reader) (x : Act Reader α) : Act Scan (α × Reader) := do
  let (result, after) ← Act.within reader x.attempt
  match result with
  | .ok a => return (a, after)
  | .error failure =>
    release after
    failWith failure

/-- The reader, opened now if the scan has only begun; none once it has ended. -/
def openedReader : Act Scan (Option Reader) := do
  let s ← Act.get
  match s.phase with
  | .ended => return none
  | .running reader => return some reader
  | .waiting =>
    match s.config.resolve with
    | .error e =>
      finish
      Act.fail (.config e)
    | .ok config =>
      let reader := Reader.fresh config s.columns s.filters
      let ((), opened) ← onReader reader (Reader.init s.partition)
      return some opened

def draw : Act Scan (Option Value) := do
  match ← openedReader with
  | none => return none
  | some reader =>
    match ← onReader reader Reader.draw with
    | (some document, after) =>
      Act.set ((← Act.get).withPhase (.running after))
      return some document
    | (none, after) =>
      release after
      return none

/-- What can be asked of a scan. -/
inductive Command where
  | next
  | list
  | close
  deriving DecidableEq, Repr

/-- The answers of a scan. -/
inductive Answer where
  | done
  | document (v : Value)
  | documents (vs : List Value)

def stop : Act Scan Unit := do
  match (← Act.get).phase with
  | .running reader => release reader
  | _ => finish

def perform : Command → Act Scan Answer
  | .next => do
    match ← draw with
    | some document => return .document document
    | none => Act.fail .exhausted
  | .list => do return .documents (← Act.drawAll draw)
  | .close => do
    stop
    return .done

end Scan

end DocScan
