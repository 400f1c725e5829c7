import DocScan.Number.Binary64

/-!
# Values

The values that filters compare with, documents hold and configurations are
written in: the scalars of a document store, ordered lists and tuples, and
dictionaries that keep the order of their entries.  Structural equality of
values is decidable.
-/

namespace DocScan

/-- A document identifier: twelve bytes. -/
structure ObjectId where
  bytes : List UInt8
  length_bytes : bytes.length = 12
  deriving DecidableEq

/-- A value.  A dictionary lists its entries in order. -/
inductive Value where
  | null
  | bool (b : Bool)
  | int (n : Int)
  | float (x : Binary64)
  | text (s : String)
  | bytes (bs : List UInt8)
  | objectId (id : ObjectId)
  | list (items : List Value)
  | tuple (items : List Value)
  | dict (entries : List (Value × Value))
  deriving Inhabited

namespace Value

mutual

/-- Whether two values are the same in kind and content. -/
def same : Value → Value → Bool
  | .null, .null => true
  | .bool a, .bool b => a = b
  | .int m, .int n => m = n
  | .float x, .float y => x = y
  | .text s, .text t => s = t
  | .bytes a, .bytes b => a = b
  | .objectId i, .objectId j => i = j
  | .list xs, .list ys => sameItems xs ys
  | .tuple xs, .tuple ys => sameItems xs ys
  | .dict es, .dict fs => sameEntries es fs
  | _, _ => false

def sameItems : List Value → List Value → Bool
  | [], [] => true
  | x :: xs, y :: ys => same x y && sameItems xs ys
  | _, _ => false

def sameEntries : List (Value × Value) → List (Value × Value) → Bool
  | [], [] => true
  | (k, v) :: es, (l, w) :: fs => same k l && same v w && sameEntries es fs
  | _, _ => false

end

mutual

theorem same_iff_eq (a b : Value) : same a b = true ↔ a = b := by
  cases a <;> cases b <;>
    simp [same, sameItems_iff_eq, sameEntries_iff_eq]

theorem sameItems_iff_eq (xs ys : List Value) : sameItems xs ys = true ↔ xs = ys := by
  match xs, ys with
  | [], [] => simp [sameItems]
  | [], _ :: _ => simp [sameItems]
  | _ :: _, [] => simp [sameItems]
  | x :: xs, y :: ys => simp [sameItems, same_iff_eq x y, sameItems_iff_eq xs ys]

theorem sameEntries_iff_eq (es fs : List (Value × Value)) :
    sameEntries es fs = true ↔ es = fs := by
  match es, fs with
  | [], [] => simp [sameEntries]
  | [], _ :: _ => simp [sameEntries]
  | _ :: _, [] => simp [sameEntries]
  | (k, v) :: es, (l, w) :: fs =>
    simp [sameEntries, same_iff_eq k l, same_iff_eq v w, sameEntries_iff_eq es fs]

end

instance : DecidableEq Value := fun a b =>
  decidable_of_iff (same a b = true) (same_iff_eq a b)

end Value

end DocScan
