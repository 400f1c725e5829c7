import DocScan.Value.Display

/-!
# Faults of settings

Settings are checked field by field and item by item, and every fault is
reported with the place where it was found.  A checked value is accepted only
without faults.
-/

namespace DocScan

/-- One step on the way to a setting: a name or a number. -/
inductive Place where
  | name (s : String)
  | number (n : Int)
  deriving DecidableEq, Repr

/-- How a value differs in length from the fields it should fill. -/
inductive Mismatch where
  | shorter
  | longer
  deriving DecidableEq, Repr

/-- What can be wrong with a setting. -/
inductive FaultKind where
  | missing
  | notText
  | undecodableText
  | emptyText
  | notInteger
  | integerText
  | fractional
  | notFinite
  | integerSize
  | notPositive
  | notDictionary
  | notTuple
  | noItems (accepted : Nat)
  | notRecord (name : String)
  | itemCount (m : Mismatch)
  | unknownKey
  | keyNotText
  deriving DecidableEq, Repr

namespace FaultKind

def code : FaultKind → String
  | .missing => "missing"
  | .notText => "string_type"
  | .undecodableText => "string_unicode"
  | .emptyText => "string_too_short"
  | .notInteger => "int_type"
  | .integerText => "int_parsing"
  | .fractional => "int_from_float"
  | .notFinite => "finite_number"
  | .integerSize => "int_parsing_size"
  | .notPositive => "greater_than"
  | .notDictionary => "dict_type"
  | .notTuple => "tuple_type"
  | .noItems _ => "too_short"
  | .notRecord _ => "model_type"
  | .itemCount _ => "value_error"
  | .unknownKey => "extra_forbidden"
  | .keyNotText => "invalid_key"

def message : FaultKind → String
  | .missing => "Field required"
  | .notText => "Input should be a valid string"
  | .undecodableText =>
    "Input should be a valid string, unable to parse raw data as a unicode string"
  | .emptyText => "String should have at least 1 character"
  | .notInteger => "Input should be a valid integer"
  | .integerText => "Input should be a valid integer, unable to parse string as an integer"
  | .fractional => "Input should be a valid integer, got a number with a fractional part"
  | .notFinite => "Input should be a finite number"
  | .integerSize => "Unable to parse input string as an integer, exceeded maximum size"
  | .notPositive => "Input should be greater than 0"
  | .notDictionary => "Input should be a valid dictionary"
  | .notTuple => "Input should be a valid tuple"
  | .noItems accepted =>
    "Tuple should have at least 1 item after validation, not " ++ toString accepted
  | .notRecord name => "Input should be a valid dictionary or instance of " ++ name
  | .itemCount .shorter => "Value error, zip() argument 2 is shorter than argument 1"
  | .itemCount .longer => "Value error, zip() argument 2 is longer than argument 1"
  | .unknownKey => "Extra inputs are not permitted"
  | .keyNotText => "Keys should be strings"

end FaultKind

/-- A fault and where it was found. -/
structure Fault where
  path : List Place
  kind : FaultKind
  deriving DecidableEq, Repr

def Fault.below (place : Place) (f : Fault) : Fault := ⟨place :: f.path, f.kind⟩

/-- The number of faults in a record of the given name. -/
def faultCount (faults : List Fault) (record : String) : String :=
  toString faults.length
    ++ (if faults.length = 1 then " validation error for " else " validation errors for ")
    ++ record

/-- A value that passed its checks, or the faults that were found. -/
abbrev Checked (α : Type) := Except (List Fault) α

namespace Checked

def fail {α : Type} (kind : FaultKind) : Checked α := .error [⟨[], kind⟩]

def faults {α : Type} : Checked α → List Fault
  | .ok _ => []
  | .error fs => fs

/-- A check of something that stands at a place. -/
def atPlace {α : Type} (place : Place) : Checked α → Checked α
  | .ok a => .ok a
  | .error fs => .error (fs.map (Fault.below place))

/-- Two checks, with the faults of both in order. -/
def both {α β : Type} (x : Checked α) (y : Checked β) : Checked (α × β) :=
  match x, y with
  | .ok a, .ok b => .ok (a, b)
  | .ok _, .error fs => .error fs
  | .error es, y => .error (es ++ faults y)

/-- The checks of all items, with the faults of all in order. -/
def all {α : Type} : List (Checked α) → Checked (List α)
  | [] => .ok []
  | x :: rest =>
    match both x (all rest) with
    | .ok (a, as) => .ok (a :: as)
    | .error fs => .error fs

def passed {α : Type} (xs : List (Checked α)) : Nat :=
  (xs.filter fun x => x.toOption.isSome).length

end Checked

end DocScan
