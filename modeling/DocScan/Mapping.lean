import DocScan.Value.Display
import DocScan.Value.Elements
import DocScan.Value.Equality

/-!
# Dictionaries from other values

A dictionary can be given as such or as a run of pairs, each of which may be
anything with two elements.
-/

namespace DocScan

/-- Why a value does not give a dictionary. -/
inductive MappingError where
  | notIterable (value : Value)
  | elementNotSequence (index : Nat)
  | elementLength (index length : Nat)
  | unhashableKey (kind : String)
  deriving DecidableEq

def MappingError.message : MappingError → String
  | .notIterable v => "'" ++ v.kindName ++ "' object is not iterable"
  | .elementNotSequence index =>
    "cannot convert dictionary update sequence element #" ++ toString index ++ " to a sequence"
  | .elementLength index length =>
    "dictionary update sequence element #" ++ toString index ++ " has length "
      ++ toString length ++ "; 2 is required"
  | .unhashableKey kind => "unhashable type: '" ++ kind ++ "'"

mutual

/-- The kind of value that keeps a value from being a key. -/
def Value.unhashable? : Value → Option String
  | .list items => some (Value.list items).kindName
  | .dict entries => some (Value.dict entries).kindName
  | .tuple items => unhashableItem? items
  | _ => none

def Value.unhashableItem? : List Value → Option String
  | [] => none
  | item :: rest =>
    match item.unhashable? with
    | some kind => some kind
    | none => unhashableItem? rest

end

/-- The entries with those of a run of pairs, numbered from an index, set one
after the other. -/
def Value.setPairs (index : Nat) (acc : List (Value × Value)) :
    List Value → Except MappingError (List (Value × Value))
  | [] => .ok acc
  | element :: rest =>
    match element.elements? with
    | none => .error (.elementNotSequence index)
    | some [key, value] =>
      match key.unhashable? with
      | some kind => .error (.unhashableKey kind)
      | none => setPairs (index + 1) (Value.setEntry key value acc) rest
    | some elements => .error (.elementLength index elements.length)

/-- The entries of the dictionary that a value gives. -/
def Value.toEntries : Value → Except MappingError (List (Value × Value))
  | .dict entries => .ok entries
  | value =>
    match value.elements? with
    | some elements => setPairs 0 [] elements
    | none => .error (.notIterable value)

end DocScan
