import DocScan.Value.Display

/-!
# The log

Each record says what happened in a fixed form; its level and the part of the
program that writes it follow from that.
-/

namespace DocScan

/-- The parts of the program that write to the log. -/
inductive LogSource where
  | connection
  | reader
  deriving DecidableEq, Repr

inductive LogLevel where
  | debug
  | warning
  deriving DecidableEq, Repr

/-- The records of the log. -/
inductive LogRecord where
  | extraCredentials (count : Nat)
  | connected (hosts : List String)
  | opened (database collection : String) (index : Int) (queryKeys fields : List String)
  | openFailed (index : Int) (message : String)
  | closing (state : String)
  deriving DecidableEq

namespace LogRecord

def level : LogRecord → LogLevel
  | .extraCredentials _ | .openFailed _ _ => .warning
  | .connected _ | .opened _ _ _ _ _ | .closing _ => .debug

def source : LogRecord → LogSource
  | .extraCredentials _ | .connected _ => .connection
  | .opened _ _ _ _ _ | .openFailed _ _ | .closing _ => .reader

/-- Names in ascending order, shown as a list. -/
def sortedNames (names : List String) : String :=
  "[" ++ Value.commaSeparated ((names.mergeSort fun a b => a ≤ b).map Text.quoted) ++ "]"

/-- The text of a record.  One that cannot show the index of a partition is not
written. -/
def text? : LogRecord → Option String
  | .extraCredentials count =>
    some ("Client authenticates as a single user; ignoring " ++ toString count
      ++ " extra credential(s)")
  | .connected hosts => some ("Connected to " ++ String.intercalate "," hosts)
  | .opened database collection index queryKeys fields => do
    return "Reader initialized for " ++ database ++ "." ++ collection ++ " partition "
      ++ (← Decimal.intText? index) ++ " (query keys=" ++ sortedNames queryKeys
      ++ ", fields=" ++ sortedNames fields ++ ")"
  | .openFailed index message => do
    return "Failed to initialize reader for partition " ++ (← Decimal.intText? index) ++ ": "
      ++ message
  | .closing state => some ("Closing reader (state=" ++ state ++ ")")

end LogRecord

end DocScan
