import DocScan.Value

/-!
# Equality of contents

Two values are equal when they denote the same thing: numbers of any kind
compare by exact value, texts, bytes and identifiers by content, lists with
lists and tuples with tuples item by item, and dictionaries regardless of the
order of their entries.  A NaN equals nothing, itself included.  Keys of a
dictionary are identified by this equality.
-/

namespace DocScan.Value

/-- What a number is compared by: an integer, or a double that is none. -/
inductive Magnitude where
  | integer (n : Int)
  | fractional (x : Binary64)

/-- The magnitude of a truth value, integer or double. -/
def magnitude? : Value → Option Magnitude
  | .bool b => some (.integer (if b then 1 else 0))
  | .int n => some (.integer n)
  | .float x =>
    match x.toInt? with
    | some n => some (.integer n)
    | none => some (.fractional x)
  | _ => none

/-- Whether both values are numbers of one magnitude. -/
def numericallyEqual (a b : Value) : Bool :=
  match a.magnitude?, b.magnitude? with
  | some (.integer m), some (.integer n) => m = n
  | some (.fractional x), some (.fractional y) => x.equal y
  | _, _ => false

mutual

def equal : Value → Value → Bool
  | .null, .null => true
  | .text s, .text t => s = t
  | .bytes a, .bytes b => a = b
  | .objectId i, .objectId j => i = j
  | .list xs, .list ys => equalItems xs ys
  | .tuple xs, .tuple ys => equalItems xs ys
  | .dict es, .dict fs => es.length = fs.length && entriesWithin es fs
  | a, b => numericallyEqual a b

/-- Whether two runs of items are equal one by one. -/
def equalItems : List Value → List Value → Bool
  | [], [] => true
  | x :: xs, y :: ys => equal x y && equalItems xs ys
  | _, _ => false

/-- Whether every entry of the first dictionary is one of the second. -/
def entriesWithin : List (Value × Value) → List (Value × Value) → Bool
  | [], _ => true
  | (k, v) :: es, fs =>
    fs.any (fun entry => equal k entry.1 && equal v entry.2) && entriesWithin es fs

end

/-- Sets the value under a key: an equal key keeps its place and its first
spelling, a new one goes to the end. -/
def setEntry (key value : Value) : List (Value × Value) → List (Value × Value)
  | [] => [(key, value)]
  | (k, v) :: rest =>
    if equal k key then (k, value) :: rest else (k, v) :: setEntry key value rest

/-- The dictionary that holds the given entries, set one after the other. -/
def dictOf (entries : List (Value × Value)) : Value :=
  .dict (entries.foldl (fun acc entry => setEntry entry.1 entry.2 acc) [])

/-- The value under a text key of a dictionary. -/
def lookup? (name : String) (entries : List (Value × Value)) : Option Value :=
  (entries.find? fun entry => entry.1 = .text name).map Prod.snd

end DocScan.Value
