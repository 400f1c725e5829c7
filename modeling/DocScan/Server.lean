import DocScan.Value

/-!
# The server of a session

A session meets the server at named points.  The server answers a point with
success or with a report of what went wrong, as its script says, and gives the
documents of a cursor one after the other.
-/

namespace DocScan

/-- The points at which a session meets the server. -/
inductive Point where
  | factory
  | command
  | database
  | collection
  | find
  | batchSize
  | hint
  | min
  | max
  | fetch
  | cursorClose
  | clientClose
  deriving DecidableEq, Repr

/-- The kinds of reports.  An exhaustion says that there is nothing more.  An
interrupt is meant for the whole program: no step handles it. -/
inductive ReportKind where
  | connection
  | exhaustion
  | ordinary (name : String)
  | interrupt (name : String)
  deriving DecidableEq, Repr

/-- What the server reports in place of a success. -/
structure Report where
  kind : ReportKind
  message : String
  deriving DecidableEq, Repr

/-- A server: its documents, the outcomes still to come at each point, and the
number of clients it has made. -/
structure Server where
  documents : List Value
  script : Point → List (Option Report)
  clients : Nat

namespace Server

/-- The next outcome at a point; past the end of the script all is success. -/
def outcome (s : Server) (p : Point) : Option Report := (s.script p).head?.join

def advance (s : Server) (p : Point) : Server :=
  { s with script := fun q => if q = p then (s.script q).tail else s.script q }

end Server

end DocScan
