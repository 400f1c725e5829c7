import DocScan.Value.Display
import DocScan.Value.Elements
import DocScan.Value.Equality

/-!
# Query documents

A query document constrains the documents that are found: under `$and` and
`$or` stand lists of clauses, and under any other key a value to be equal to,
or a dictionary of operators.  Its keys keep their order.

A clause is a constraint under a single key.  Merging a clause into a query
keeps every constraint: lists under `$and` accumulate, operator dictionaries
without a common operator unite, and any other clash on a key moves the two
constraints under `$and`.
-/

namespace DocScan

/-- A constraint under one key. -/
structure Clause where
  key : String
  condition : Value
  deriving DecidableEq

def Clause.toValue (c : Clause) : Value := .dict [(.text c.key, c.condition)]

/-- A query document: its conditions with their keys, in order. -/
structure Query where
  entries : List (String × Value)
  deriving DecidableEq

/-- Why a clause cannot be merged: the condition under `$and` takes no further
clauses, or the one to be added is no run of clauses. -/
inductive MergeError where
  | notExtensible (condition : Value)
  | notIterable (condition : Value)
  deriving DecidableEq

def MergeError.message : MergeError → String
  | .notExtensible v => "'" ++ v.kindName ++ "' object has no attribute 'extend'"
  | .notIterable v => "'" ++ v.kindName ++ "' object is not iterable"

def Value.isOperatorKey : Value → Bool
  | .text s => s.toList.head? = some '$'
  | _ => false

/-- The entries of a dictionary that holds operators and nothing else. -/
def Value.operators? : Value → Option (List (Value × Value))
  | .dict [] => none
  | .dict entries => if entries.all fun entry => entry.1.isOperatorKey then some entries else none
  | _ => none

/-- Two dictionaries of operators as one, when they have no operator in common. -/
def Value.unite? (existing added : Value) : Option Value :=
  match existing.operators?, added.operators? with
  | some es, some fs =>
    if es.any fun e => fs.any fun f => e.1 = f.1 then none else some (.dict (es ++ fs))
  | _, _ => none

namespace Query

def empty : Query := ⟨[]⟩

def toValue (q : Query) : Value := .dict (q.entries.map fun (key, value) => (.text key, value))

def find? (q : Query) (key : String) : Option Value :=
  (q.entries.find? fun entry => entry.1 = key).map Prod.snd

def add (q : Query) (key : String) (condition : Value) : Query :=
  ⟨q.entries ++ [(key, condition)]⟩

/-- Replaces the condition under a key in its place. -/
def replace (q : Query) (key : String) (condition : Value) : Query :=
  ⟨q.entries.map fun entry => if entry.1 = key then (key, condition) else entry⟩

def erase (q : Query) (key : String) : Query :=
  ⟨q.entries.filter fun entry => entry.1 ≠ key⟩

theorem find?_add (q : Query) (key name : String) (condition : Value) :
    (q.add key condition).find? name =
      (q.find? name).or (if key = name then some condition else none) := by
  unfold find? add
  rw [List.find?_append]
  cases q.entries.find? fun entry => entry.1 = name with
  | some entry => simp
  | none => by_cases h : key = name <;> simp [h]

theorem find?_replace (q : Query) (key name : String) (condition : Value) :
    (q.replace key condition).find? name =
      if name = key then (q.find? key).map fun _ => condition else q.find? name := by
  unfold find? replace
  induction q.entries with
  | nil => simp
  | cons entry rest ih =>
    by_cases hkey : entry.1 = key
    · by_cases hname : name = key
      · simp [hkey, hname]
      · have hne : ¬ key = name := fun h => hname h.symm
        simpa [hkey, hname, hne] using ih
    · by_cases hname : name = key
      · subst hname
        simpa [hkey] using ih
      · by_cases hentry : entry.1 = name
        · simp [hname, hentry]
        · simpa [hkey, hname, hentry] using ih

theorem find?_erase (q : Query) (key name : String) :
    (q.erase key).find? name = if name = key then none else q.find? name := by
  unfold find? erase
  induction q.entries with
  | nil => simp
  | cons entry rest ih =>
    by_cases hkey : entry.1 = key
    · by_cases hname : name = key
      · simp [hkey, hname]
      · have hne : ¬ key = name := fun h => hname h.symm
        simpa [hkey, hname, hne] using ih
    · by_cases hname : name = key
      · subst hname
        simp [hkey]
      · by_cases hentry : entry.1 = name
        · simp [hname, hentry]
        · simpa [hkey, hname, hentry] using ih

/-- Appends clauses to the list under `$and`, which is begun if need be. -/
def conjoin (q : Query) (clauses : List Value) : Except MergeError Query :=
  match q.find? "$and" with
  | none => .ok (q.add "$and" (.list clauses))
  | some (.list items) => .ok (q.replace "$and" (.list (items ++ clauses)))
  | some condition => .error (.notExtensible condition)

def merge (q : Query) (c : Clause) : Except MergeError Query :=
  match q.find? c.key with
  | none => .ok (q.add c.key c.condition)
  | some existing =>
    if c.key = "$and" then
      match existing with
      | .list _ =>
        match c.condition.elements? with
        | some clauses => q.conjoin clauses
        | none => .error (.notIterable c.condition)
      | _ => .error (.notExtensible existing)
    else
      match existing.unite? c.condition with
      | some united => .ok (q.replace c.key united)
      | none =>
        if c.key = "$or" then q.conjoin [c.toValue]
        else (q.erase c.key).conjoin [(Clause.mk c.key existing).toValue, c.toValue]

end Query

end DocScan
