import DocScan.Number.Decimal

/-!
# Integers written as text

Around the digits of an integer there may be blanks, a sign, leading zeros, a
fraction of zeros and single underscores.  The sign is set aside, each of the
others is removed in turn, and a minus is put back in front.  What is left
must be a numeral: an optional minus and digits without a leading zero.  A
minus behind leading zeros is kept as the sign of what follows it, so that
`0-1` is read as minus one.
-/

namespace DocScan.IntegerText

def isBlank (c : Char) : Bool :=
  let n := c.toNat
  (9 ≤ n && n ≤ 13) || n = 0x20 || n = 0x85 || n = 0xA0 || n = 0x1680
    || (0x2000 ≤ n && n ≤ 0x200A) || n = 0x2028 || n = 0x2029 || n = 0x202F
    || n = 0x205F || n = 0x3000

def trimBlanks (cs : List Char) : List Char :=
  ((cs.dropWhile isBlank).reverse.dropWhile isBlank).reverse

/-- Whether a text has a minus in front, and the text behind its sign. -/
def splitSign : List Char → Bool × List Char
  | '-' :: rest => (true, rest)
  | '+' :: rest => (false, rest)
  | cs => (false, cs)

/-- The rest of a run of zeros and underscores, given the last of them.  A
digit or a minus ends the run; a point ends it too and keeps the one character
before it. -/
def afterZeros? (last : Char) : List Char → Option (List Char)
  | [] => some [last]
  | c :: rest =>
    if c = '0' ∨ c = '_' then afterZeros? c rest
    else if c = '.' then some (last :: c :: rest)
    else if Decimal.isDigit c ∨ c = '-' then some (c :: rest)
    else none

/-- A text that starts with a digit, without its leading zeros. -/
def dropZeros? : List Char → Option (List Char)
  | '0' :: rest => afterZeros? '0' rest
  | c :: rest => if Decimal.isDigit c then some (c :: rest) else none
  | [] => none

/-- A text without a fraction that is all zeros and has at least one. -/
def dropZeroFraction (cs : List Char) : List Char :=
  match cs.span (· ≠ '.') with
  | (whole, '.' :: fraction) =>
    if !fraction.isEmpty && fraction.all (· = '0') then whole else cs
  | _ => cs

def hasDoubleUnderscore : List Char → Bool
  | '_' :: '_' :: _ => true
  | _ :: rest => hasDoubleUnderscore rest
  | [] => false

/-- A text without its underscores, if all of them stand singly inside it. -/
def dropUnderscores (cs : List Char) : List Char :=
  if cs.head? = some '_' ∨ cs.getLast? = some '_' ∨ hasDoubleUnderscore cs then cs
  else cs.filter (· ≠ '_')

/-- What is left of a text when everything optional is removed. -/
def bare? (cs : List Char) : Option (List Char) := do
  let (negative, unsigned) := splitSign (trimBlanks cs)
  let trimmed ← dropZeros? unsigned
  let digits := dropUnderscores (dropZeroFraction trimmed)
  return if negative then '-' :: digits else digits

/-- The longest start of a text that is the digits of a natural number: a
leading zero stands alone. -/
def naturalDigits : List Char → List Char
  | '0' :: _ => ['0']
  | cs => cs.takeWhile Decimal.isDigit

/-- The longest start of a text that is a numeral. -/
def numeral : List Char → List Char
  | '-' :: rest => '-' :: naturalDigits rest
  | cs => naturalDigits cs

/-- The natural number of a run of digits. -/
def natural? (digits : List Char) : Option Nat :=
  if digits.isEmpty then none else some (Decimal.ofDigits digits)

def integer? : List Char → Option Int
  | '-' :: digits => (natural? digits).map fun n => -(n : Int)
  | digits => (natural? digits).map Int.ofNat

/-- What a text is as an integer. -/
inductive Reading where
  | value (n : Int)
  | tooLong
  | none
  deriving DecidableEq, Repr

/-- The digits of a numeral, which are what is left without the minus. -/
def unsignedDigits : List Char → List Char
  | '-' :: digits => digits
  | digits => digits

/-- Reads a text as an integer.  A numeral with too many digits is noticed
before what follows it. -/
def read (cs : List Char) : Reading :=
  match bare? cs with
  | some bare =>
    if Decimal.maxDigits < (unsignedDigits (numeral bare)).length then .tooLong
    else if numeral bare ≠ bare then .none
    else
      match integer? bare with
      | some n => .value n
      | Option.none => .none
  | Option.none => .none

end DocScan.IntegerText
