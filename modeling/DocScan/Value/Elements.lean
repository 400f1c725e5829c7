import DocScan.Value

/-!
# Values made of values

Three readings of a value as a run of others.  Only lists and tuples have
items.  Membership takes the keys of a dictionary too, and any other value as
the single member.  Stepping through a value also gives the characters of a
text and the bytes of a byte string, and nothing for other scalars.
-/

namespace DocScan.Value

def items? : Value → Option (List Value)
  | .list items => some items
  | .tuple items => some items
  | _ => none

def members : Value → List Value
  | .list items => items
  | .tuple items => items
  | .dict entries => entries.map Prod.fst
  | value => [value]

/-- The values that stepping through a value gives. -/
def elements? : Value → Option (List Value)
  | .list items => some items
  | .tuple items => some items
  | .dict entries => some (entries.map Prod.fst)
  | .text s => some (s.toList.map fun c => .text (String.singleton c))
  | .bytes bs => some (bs.map fun b => .int b.toNat)
  | _ => none

end DocScan.Value
