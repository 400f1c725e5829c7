/-!
# Close matches of a word

Two words are compared by the characters they have in common: the longest
common block, and then what the blocks to its left and right share in turn.
Their ratio is twice that count over the sum of the lengths.  Close matches
of a word are the candidates with a ratio of at least three fifths.

In a word of two hundred characters or more, a character that makes up over
one per cent of it is common: it cannot start a block, but extends one.
-/

namespace DocScan.Similarity

/-- Whether a character occurs so often in a long word that it says little. -/
def isCommon (word : List Char) (c : Char) : Bool :=
  200 ≤ word.length && word.length / 100 + 1 < word.count c

/-- The length of the longest common start of two runs of characters that
satisfy a condition. -/
def sharedStart (admits : Char → Bool) : List Char → List Char → Nat
  | a :: as, b :: bs => if a = b && admits b then sharedStart admits as bs + 1 else 0
  | _, _ => 0

/-- A block of `size` equal characters, at `left` in one word and at `right`
in the other. -/
structure Block where
  left : Nat
  right : Nat
  size : Nat

/-- The best block among those that start at `left` in one word and at some
place from `right` on in the other; an earlier one wins over an equally long. -/
def bestAt (admits : Char → Bool) (as : List Char) (left : Nat) :
    List Char → Nat → Block → Block
  | [], _, best => best
  | b :: bs, right, best =>
    let size := sharedStart admits as (b :: bs)
    bestAt admits as left bs (right + 1) (if best.size < size then ⟨left, right, size⟩ else best)

def bestBlock (admits : Char → Bool) (bs : List Char) : List Char → Nat → Block → Block
  | [], _, best => best
  | a :: as, left, best =>
    bestBlock admits bs as (left + 1) (bestAt admits (a :: as) left bs 0 best)

/-- A block grown over all equal characters around it. -/
def Block.grow (as bs : List Char) (block : Block) : Block :=
  let back := sharedStart (fun _ => true) (as.take block.left).reverse (bs.take block.right).reverse
  let ahead := sharedStart (fun _ => true)
    (as.drop (block.left + block.size)) (bs.drop (block.right + block.size))
  ⟨block.left - back, block.right - back, block.size + back + ahead⟩

def longestBlock (admits : Char → Bool) (as bs : List Char) : Block :=
  (bestBlock admits bs as 0 ⟨0, 0, 0⟩).grow as bs

/-- The number of characters that two runs have in common, block by block. -/
def sharedCount (admits : Char → Bool) (as bs : List Char) : Nat :=
  match longestBlock admits as bs with
  | ⟨left, right, size⟩ =>
    if 0 < size ∧ left + size ≤ as.length then
      size + sharedCount admits (as.take left) (bs.take right)
        + sharedCount admits (as.drop (left + size)) (bs.drop (right + size))
    else 0
termination_by as.length
decreasing_by
  all_goals
    simp only [List.length_take, List.length_drop]
    omega

/-- A candidate with the characters it shares with a word. -/
structure Candidate where
  text : String
  shared : Nat

/-- Orders the candidates for a word: a higher ratio first, and of equal
ratios the larger text. -/
def Candidate.before (wordLength : Nat) (x y : Candidate) : Bool :=
  let left := x.shared * (wordLength + y.text.length)
  let right := y.shared * (wordLength + x.text.length)
  right < left || (left = right && y.text ≤ x.text)

/-- The at most three candidates that are closest to a word. -/
def closeMatches (word : String) (candidates : List String) : List String :=
  let target := word.toList
  let rare := fun c => !isCommon target c
  let scored := candidates.map fun text => Candidate.mk text (sharedCount rare text.toList target)
  let close := scored.filter fun candidate =>
    3 * (candidate.text.length + target.length) ≤ 10 * candidate.shared
  ((close.mergeSort (Candidate.before target.length)).take 3).map Candidate.text

end DocScan.Similarity
