import DocScan.Filter
import DocScan.Filter.Suggestion
import DocScan.Value.Display
import DocScan.Value.Equality

/-!
# The wire form of filters

On the wire a filter is a dictionary: `op` names its operator, a leaf has
`attr` and, unless it checks for nulls, `val`, and a connective has a list of
`conditions`.  Reading accepts operator names in any case, a lone `condition`
in place of the list, and more than two conditions, which are joined from the
left.  Every fault is reported with the address of the node that has it.
-/

namespace DocScan

namespace Filter

/-- The entry of a dictionary under a text key. -/
def wireEntry (name : String) (value : Value) : Value × Value := (.text name, value)

/-- The wire form of a leaf with a value. -/
def wireLeaf (operator field : String) (value : Value) : Value :=
  .dict [wireEntry "op" (.text operator), wireEntry "attr" (.text field),
    wireEntry "val" value]

def wireCheck (operator field : String) : Value :=
  .dict [wireEntry "op" (.text operator), wireEntry "attr" (.text field)]

/-- The wire form of a connective over its conditions. -/
def wireConnective (c : Connective) (conditions : List Value) : Value :=
  .dict [wireEntry "op" (.text c.text), wireEntry "conditions" (.list conditions)]

/-- The value in a tree that has no wire form, because it is no filter. -/
structure NoWireForm where
  value : Value

def NoWireForm.message (e : NoWireForm) : String :=
  "'" ++ e.value.kindName ++ "' object has no attribute 'to_dict'"

/-- The wire form of a filter; the leftmost value that is no filter is
reported. -/
def toWire : Filter → Except NoWireForm Value
  | .test t a v => .ok (wireLeaf t.text a v)
  | .member a vs => .ok (wireLeaf LeafOperator.member.text a (.list vs))
  | .isNull a => .ok (wireCheck LeafOperator.isNull.text a)
  | .isNotNull a => .ok (wireCheck LeafOperator.isNotNull.text a)
  | .and l r => do
    let left ← toWire l
    let right ← toWire r
    return wireConnective .and [left, right]
  | .or l r => do
    let left ← toWire l
    let right ← toWire r
    return wireConnective .or [left, right]
  | .not c => do
    let child ← toWire c
    return wireConnective .not [child]
  | .extension o a v => .ok (wireLeaf o a v)
  | .unknown => .ok (.dict [wireEntry "op" (.text "opaque")])
  | .plain v => .error ⟨v⟩

end Filter

/-- Where a node stands in a wire form: the root's name and the condition to
take at each level. -/
structure Address where
  root : String
  steps : List Nat
  deriving DecidableEq

namespace Address

/-- The address of a condition of the node at an address. -/
def child (a : Address) (index : Nat) : Address := ⟨a.root, a.steps ++ [index]⟩

def text (a : Address) : String :=
  a.root ++ String.join (a.steps.map fun i => ".conditions[" ++ toString i ++ "]")

def whole : Address := ⟨"<root>", []⟩

/-- The address of an item of a list of wire forms. -/
def item (index : Nat) : Address := ⟨"<root>[" ++ toString index ++ "]", []⟩

end Address

/-- What can be wrong with a node of a wire form. -/
inductive WireFault where
  | notDictionary (value : Value)
  | missingOperator
  | unknownOperator (name : String)
  | missingAttribute (node : Value)
  | missingConditions (c : Connective)
  | notOneCondition
  | tooFewConditions (c : Connective)
  deriving DecidableEq

/-- A fault at the node that has it. -/
structure WireError where
  fault : WireFault
  address : Address
  deriving DecidableEq

namespace WireError

/-- The operator that is not known, where that is the fault. -/
def operator? (e : WireError) : Option String :=
  match e.fault with
  | .unknownOperator name => some name
  | _ => none

/-- An operator that is not known is not supported; any other fault makes the
wire form malformed.  A leaf that cannot be shown is not refused as a filter. -/
def refusal? (e : WireError) : Option Refusal :=
  match e.fault with
  | .unknownOperator name => some (.unsupported (some name))
  | .missingAttribute node => node.display?.map fun _ => .malformed
  | _ => some .malformed

/-- The operators suggested in place of one that is not known. -/
def suggestions (e : WireError) : List String :=
  DocScan.suggestions e.operator? (Operator.all.map Operator.text)

def message (e : WireError) : String :=
  let place := e.address.text
  match e.fault with
  | .notDictionary value => "Expected a dict at " ++ place ++ ", got " ++ value.kindName
  | .missingOperator => "Missing or empty 'op' key at " ++ place
  | .unknownOperator name =>
    withSuggestions ("Unknown filter operator '" ++ name ++ "' at " ++ place ++ ".") e.suggestions
  | .missingAttribute node =>
    match node.display? with
    | some shown => "Leaf filter missing 'attr' at " ++ place ++ ": " ++ shown
    | none => Decimal.limitMessage
  | .missingConditions c =>
    "Logical operator '" ++ c.text ++ "' requires 'conditions' list at " ++ place
  | .notOneCondition => "'not' takes exactly one condition at " ++ place
  | .tooFewConditions c =>
    "Logical operator '" ++ c.text ++ "' requires at least two conditions at " ++ place

end WireError

namespace Filter

/-- The text under a key, unless it is missing, empty or no text. -/
def nonemptyText? (name : String) (entries : List (Value × Value)) : Option String :=
  match Value.lookup? name entries with
  | some (.text s) => if s = "" then none else some s
  | _ => none

/-- The conditions of a connective: the list under `conditions`, or when that
is absent or null the value under `condition` alone. -/
def conditions? (entries : List (Value × Value)) : Option (List Value) :=
  match Value.lookup? "conditions" entries with
  | some (.list items) => some items
  | some .null | none => (Value.lookup? "condition" entries).map fun value => [value]
  | some _ => none

/-- The filter of a leaf's operator, field and value. -/
def leaf (op : LeafOperator) (field : String) (value : Value) : Filter :=
  match op with
  | .isNull => .isNull field
  | .isNotNull => .isNotNull field
  | .member => .member field (value.items?.getD [value])
  | .test t => .test t field value

/-- A connective over its conditions, the first of which is given apart. -/
def join (c : Connective) (address : Address) (first : Filter) (rest : List Filter) :
    Except WireError Filter :=
  match c, rest with
  | .not, [] => .ok (.not first)
  | .not, _ => .error ⟨.notOneCondition, address⟩
  | c, [] => .error ⟨.tooFewConditions c, address⟩
  | .and, rest => .ok (rest.foldl .and first)
  | .or, rest => .ok (rest.foldl .or first)

theorem sizeOf_lookup?_lt {name : String} {entries : List (Value × Value)} {value : Value}
    (h : Value.lookup? name entries = some value) : sizeOf value + 2 < sizeOf entries := by
  unfold Value.lookup? at h
  obtain ⟨entry, hfind, hvalue⟩ := Option.map_eq_some_iff.1 h
  have hmem := List.mem_of_find?_eq_some hfind
  have hsize := List.sizeOf_lt_of_mem hmem
  obtain ⟨key, v⟩ := entry
  have hkey : key = .text name := by simpa using List.find?_some hfind
  subst hkey
  simp only at hvalue
  subst hvalue
  simp only [Prod.mk.sizeOf_spec, Value.text.sizeOf_spec] at hsize
  omega

theorem sizeOf_conditions?_lt {entries : List (Value × Value)} {items : List Value}
    (h : conditions? entries = some items) : sizeOf items < sizeOf entries := by
  unfold conditions? at h
  split at h
  · rename_i found hlookup
    cases h
    have := sizeOf_lookup?_lt hlookup
    simp only [Value.list.sizeOf_spec] at this
    omega
  · obtain ⟨value, hlookup, hitems⟩ := Option.map_eq_some_iff.1 h
    have := sizeOf_lookup?_lt hlookup
    subst hitems
    simp only [List.cons.sizeOf_spec, List.nil.sizeOf_spec]
    omega
  · obtain ⟨value, hlookup, hitems⟩ := Option.map_eq_some_iff.1 h
    have := sizeOf_lookup?_lt hlookup
    subst hitems
    simp only [List.cons.sizeOf_spec, List.nil.sizeOf_spec]
    omega
  · cases h

mutual

def ofWire (address : Address) (data : Value) : Except WireError Filter :=
  match data with
  | .dict entries =>
    match nonemptyText? "op" entries with
    | none => .error ⟨.missingOperator, address⟩
    | some name =>
      match Operator.ofAnyCase? name with
      | none => .error ⟨.unknownOperator name, address⟩
      | some (.connective c) =>
        match _h : conditions? entries with
        | none | some [] => .error ⟨.missingConditions c, address⟩
        | some (first :: rest) => do
          let head ← ofWire (address.child 0) first
          let tail ← ofWireItems address 1 rest
          join c address head tail
      | some (.leaf op) =>
        match nonemptyText? "attr" entries with
        | none => .error ⟨.missingAttribute (.dict entries), address⟩
        | some field =>
          .ok (leaf op field ((Value.lookup? "val" entries).getD .null))
  | value => .error ⟨.notDictionary value, address⟩
termination_by sizeOf data
decreasing_by
  all_goals
    have hsize := sizeOf_conditions?_lt _h
    simp only [List.cons.sizeOf_spec, Value.dict.sizeOf_spec] at *
    omega

/-- The filters of the conditions from an index on. -/
def ofWireItems (address : Address) (index : Nat) (items : List Value) :
    Except WireError (List Filter) :=
  match items with
  | [] => .ok []
  | item :: rest => do
    let head ← ofWire (address.child index) item
    let tail ← ofWireItems address (index + 1) rest
    return head :: tail
termination_by sizeOf items

end

end Filter

end DocScan
