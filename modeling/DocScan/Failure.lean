import DocScan.Config
import DocScan.Partition
import DocScan.Server

/-!
# Failures of a session

A step fails because of a report of the server, because of the program's own
checks, or by wrapping another failure: those of a connection and those of
opening a reader keep what caused them.  A report of exhaustion is a failure
like others, except where documents are drawn: there it is their end.
-/

namespace DocScan

/-- Where an option of the client is given twice. -/
inductive OptionClash where
  | client
  | connectionKeyword
  | connectionPositional
  deriving DecidableEq, Repr

/-- The states of a reader. -/
inductive ReaderState where
  | uninitialized
  | initialized
  | closed
  deriving DecidableEq, Repr

def ReaderState.text : ReaderState → String
  | .uninitialized => "uninitialized"
  | .initialized => "initialized"
  | .closed => "closed"

/-- Why a step of a session fails. -/
inductive Failure where
  | reported (r : Report)
  | clash (c : OptionClash) (key : String)
  | compilation (e : CompileError)
  | notConnected
  | connection (cause : Failure)
  | opening (cause : Failure)
  | notInitializable (state : ReaderState)
  | noCursor
  | exhausted
  | misplacedEnd
  | partition (e : RecordError)
  | config (e : ConfigError)
  deriving DecidableEq

namespace Failure

def message : Failure → String
  | .reported r => r.message
  | .clash .client key =>
    "client_factory() got multiple values for keyword argument '" ++ key ++ "'"
  | .clash .connectionKeyword key =>
    "mongo_pushdown.connection.MongoConnectionManager() got multiple values for keyword argument '"
      ++ key ++ "'"
  | .clash .connectionPositional key =>
    "MongoConnectionManager.__init__() got multiple values for argument '" ++ key ++ "'"
  | .compilation e => e.message
  | .notConnected => "Not connected; call connect() first"
  | .connection cause => cause.message
  | .opening cause => cause.message
  | .notInitializable state => "Reader cannot be initialized from state " ++ state.text
  | .noCursor => "Cursor is not initialized"
  | .exhausted => ""
  | .misplacedEnd => "generator raised StopIteration"
  | .partition e => e.message
  | .config e => e.message

/-- Whether a failure is an interrupt, which no step handles. -/
def isInterrupt : Failure → Bool
  | .reported ⟨.interrupt _, _⟩ => true
  | _ => false

/-- Whether a failure is a report of exhaustion. -/
def isExhaustion : Failure → Bool
  | .reported ⟨.exhaustion, _⟩ => true
  | _ => false

/-- Whether a failure is one of a connection. -/
def isConnection : Failure → Bool
  | .reported ⟨.connection, _⟩ => true
  | .notConnected => true
  | .connection _ => true
  | _ => false

end Failure

end DocScan
