import DocScan.Number.Decimal
import DocScan.Text.Quoted
import DocScan.Value

/-!
# Values as text

The text of a value in messages: quoted texts, decimal numbers, items between
brackets, entries as `key: value` between braces.  A tuple of one item keeps
a comma behind it.  A value has no text if an integer in it has too many digits.
-/

namespace DocScan.Value

/-- The name of a value's kind in messages. -/
def kindName : Value → String
  | .null => "NoneType"
  | .bool _ => "bool"
  | .int _ => "int"
  | .float _ => "float"
  | .text _ => "str"
  | .bytes _ => "bytes"
  | .objectId _ => "ObjectId"
  | .list _ => "list"
  | .tuple _ => "tuple"
  | .dict _ => "dict"

end Value

def ObjectId.hex (id : ObjectId) : String := String.ofList (Hex.encode id.bytes)

namespace Value

/-- Texts with a comma and a blank between them. -/
def commaSeparated (parts : List String) : String := String.intercalate ", " parts

mutual

def display? : Value → Option String
  | .null => some "None"
  | .bool b => some (if b then "True" else "False")
  | .int n => Decimal.intText? n
  | .float x => some (Decimal.floatText x)
  | .text s => some (Text.quoted s)
  | .bytes bs => some (Text.quotedBytes bs)
  | .objectId id => some ("ObjectId('" ++ id.hex ++ "')")
  | .list items => do return "[" ++ commaSeparated (← displayItems? items) ++ "]"
  | .tuple [item] => do return "(" ++ (← display? item) ++ ",)"
  | .tuple items => do return "(" ++ commaSeparated (← displayItems? items) ++ ")"
  | .dict entries => do return "\x7b" ++ commaSeparated (← displayEntries? entries) ++ "\x7d"

def displayItems? : List Value → Option (List String)
  | [] => some []
  | item :: rest => do return (← display? item) :: (← displayItems? rest)

def displayEntries? : List (Value × Value) → Option (List String)
  | [] => some []
  | (key, value) :: rest => do
    return ((← display? key) ++ ": " ++ (← display? value)) :: (← displayEntries? rest)

end

/-- A value as it reads inside a sentence: a text stands without quotes, an
identifier by its digits. -/
def plainText? : Value → Option String
  | .text s => some s
  | .objectId id => some id.hex
  | value => value.display?

end DocScan.Value
