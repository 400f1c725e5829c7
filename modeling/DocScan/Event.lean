import DocScan.Log
import DocScan.Query
import DocScan.Query.Projection

/-!
# Events

Every point of the server that a session reaches is an event, with what is
asked of the server there, and so is every record of the log.
-/

namespace DocScan

/-- What happens in a session. -/
inductive Event where
  | factory (hosts : List String) (options : List (String × Value))
  | command (client : Nat)
  | database (client : Nat) (name : String)
  | collection (database name : String)
  | find (query : Query) (projection : Option Projection)
  | batchSize (n : Int)
  | hint (fields : List String)
  | min (bound : List (String × Value))
  | max (bound : List (String × Value))
  | fetch (position : Nat)
  | cursorClose
  | clientClose (client : Nat)
  | log (record : LogRecord)
  deriving DecidableEq

end DocScan
