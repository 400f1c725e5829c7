import DocScan.Filter
import DocScan.Value.Display

/-!
# Filters as text

A node is shown as its kind with its fields in parentheses, unless a value in it
cannot be shown.
-/

namespace DocScan

/-- The name of the nodes that hold a test. -/
def Test.nodeName : Test → String
  | .equal => "EqualTo"
  | .greater => "GreaterThan"
  | .greaterOrEqual => "GreaterThanOrEqual"
  | .less => "LessThan"
  | .lessOrEqual => "LessThanOrEqual"
  | .startsWith => "StringStartsWith"
  | .endsWith => "StringEndsWith"
  | .contains => "StringContains"

namespace Filter

/-- A node with the texts of its named fields. -/
def node (name : String) (fields : List (String × String)) : String :=
  name ++ "(" ++ Value.commaSeparated (fields.map fun (field, text) => field ++ "=" ++ text) ++ ")"

def display? : Filter → Option String
  | .test t a v => do
    return node t.nodeName [("attribute", Text.quoted a), ("value", ← v.display?)]
  | .member a vs => do
    return node "In" [("attribute", Text.quoted a), ("values", ← (Value.tuple vs).display?)]
  | .isNull a => some (node "IsNull" [("attribute", Text.quoted a)])
  | .isNotNull a => some (node "IsNotNull" [("attribute", Text.quoted a)])
  | .and l r => do return node "And" [("left", ← display? l), ("right", ← display? r)]
  | .or l r => do return node "Or" [("left", ← display? l), ("right", ← display? r)]
  | .not c => do return node "Not" [("child", ← display? c)]
  | .extension _ a v => do
    return node "Custom" [("attribute", Text.quoted a), ("value", ← v.display?)]
  | .unknown => some (node "Opaque" [])
  | .plain v => v.display?

end Filter

end DocScan
