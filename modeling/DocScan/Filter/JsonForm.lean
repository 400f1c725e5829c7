import DocScan.Filter.WireForm
import DocScan.JsonText.Reader

/-!
# Filters in JSON

A JSON text holds the wire form of one filter or a list of them.  The items
of a list are read in order, each with an address of its own, up to the first
that has a fault.
-/

namespace DocScan

/-- Why a JSON text holds no filters. -/
inductive JsonFormError where
  | text (e : JsonText.Error)
  | scalar
  | node (e : WireError)
  deriving DecidableEq

def JsonFormError.message : JsonFormError → String
  | .text (.malformed fault position) =>
    "Invalid JSON: " ++ (JsonText.Error.malformed fault position).message
  | .text e => e.message
  | .scalar => "Top-level JSON value must be an object or a list"
  | .node e => e.message

/-- How a text is refused.  An integer with too many digits to be read is not
refused as a filter. -/
def JsonFormError.refusal? : JsonFormError → Option Refusal
  | .text (.malformed _ _) => some .malformed
  | .text (.digitLimit _) => none
  | .scalar => some .malformed
  | .node e => e.refusal?

namespace Filter

/-- The filters that the items of a list from an index on describe. -/
def ofJsonItems (index : Nat) : List Value → Except WireError (List Filter)
  | [] => .ok []
  | item :: rest => do
    let head ← ofWire (Address.item index) item
    let tail ← ofJsonItems (index + 1) rest
    return head :: tail

def ofJsonValue : Value → Except JsonFormError (List Filter)
  | .list items =>
    match ofJsonItems 0 items with
    | .ok filters => .ok filters
    | .error e => .error (.node e)
  | .dict entries =>
    match ofWire Address.whole (.dict entries) with
    | .ok f => .ok [f]
    | .error e => .error (.node e)
  | _ => .error .scalar

def ofJson (text : String) : Except JsonFormError (List Filter) :=
  match JsonText.read text with
  | .ok value => ofJsonValue value
  | .error e => .error (.text e)

end Filter

end DocScan
