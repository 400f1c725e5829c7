import DocScan.Number.Shortest

/-!
# Decimal text of numbers

Integers are written with their digits and a leading minus; in messages they have
at most 4300 digits, and as many when they are read.  A double is
written with its shortest digits: positionally while the exponent of the
first digit is at least -4 and below 16, always with a digit after the point,
and otherwise with a signed exponent of at least two digits.  Reading takes
optional blanks, a sign, digits with single underscores between them, a
fraction and an exponent, or the name of an infinity or of the NaN.
-/

namespace DocScan.Decimal

/-- Whether a character is one of the ten decimal digits. -/
def isDigit (c : Char) : Bool := '0' ≤ c && c ≤ '9'

def digitValue (c : Char) : Nat := c.toNat - 48

/-- The number that a run of digits stands for. -/
def ofDigits (digits : List Char) : Nat :=
  digits.foldl (fun n c => 10 * n + digitValue c) 0

/-- The digits of a number, most significant first. -/
def natDigits (n : Nat) : List Char := Nat.toDigits 10 n

def intText (n : Int) : String :=
  String.ofList (if n < 0 then '-' :: natDigits n.natAbs else natDigits n.natAbs)

/-- The most digits of an integer that is shown or read. -/
def maxDigits : Nat := 4300

/-- An integer as it is shown, unless it has too many digits. -/
def intText? (n : Int) : Option String :=
  if (natDigits n.natAbs).length ≤ maxDigits then some (intText n) else none

/-- What is said in place of a text that an integer with too many digits keeps
from being made. -/
def limitMessage : String :=
  "Exceeds the limit (" ++ toString maxDigits ++ " digits) for integer string conversion; "
    ++ "use sys.set_int_max_str_digits() to increase the limit"

/-- The exponent part: a sign and at least two digits. -/
def exponentDigits (e : Int) : List Char :=
  let digits := natDigits e.natAbs
  'e' :: (if e < 0 then '-' else '+') :: (if digits.length < 2 then '0' :: digits else digits)

/-- The layout of `digits * 10 ^ k`, where `digits` is not zero. -/
def layout (digits : Nat) (k : Int) : List Char :=
  let ds := natDigits digits
  let lead : Int := ds.length - 1 + k
  if -4 ≤ lead ∧ lead < 16 then
    if 0 ≤ k then ds ++ List.replicate k.toNat '0' ++ ['.', '0']
    else if 0 ≤ lead then
      ds.take (lead.toNat + 1) ++ '.' :: ds.drop (lead.toNat + 1)
    else '0' :: '.' :: (List.replicate (-lead - 1).toNat '0' ++ ds)
  else
    match ds with
    | [d] => d :: exponentDigits lead
    | d :: rest => d :: '.' :: (rest ++ exponentDigits lead)
    | [] => []

def floatText (x : Binary64) : String :=
  if x.isNaN then "nan"
  else
    let body :=
      if x.isInfinite then ['i', 'n', 'f']
      else if x.isZero then ['0', '.', '0']
      else
        let (digits, k) := x.shortest
        layout digits k
    String.ofList (if x.isNegative then '-' :: body else body)

/-- The double nearest to a decimal with the given integer digits, fraction
digits and power of ten. -/
def ofParts (negative : Bool) (whole fraction : List Char) (exponent : Int) : Binary64 :=
  Binary64.ofDecimal negative (ofDigits (whole ++ fraction)) (exponent - fraction.length)

/-- The text without the underscores that stand singly between two digits. -/
def dropSeparators (afterDigit : Bool) : List Char → List Char
  | [] => []
  | c :: rest =>
    if c = '_' ∧ afterDigit ∧ rest.head?.any isDigit then dropSeparators false rest
    else c :: dropSeparators (isDigit c) rest

/-- The value of the exponent part, when the text is nothing else. -/
def exponentPart? : List Char → Option Int
  | [] => some 0
  | e :: rest =>
    if e = 'e' ∨ e = 'E' then
      let (negative, unsigned) : Bool × List Char :=
        match rest with
        | '-' :: more => (true, more)
        | '+' :: more => (false, more)
        | more => (false, more)
      match unsigned.span isDigit with
      | (d :: ds, []) =>
        let n : Int := ofDigits (d :: ds)
        some (if negative then -n else n)
      | _ => none
    else none

/-- The double that an unsigned text without blanks denotes. -/
def unsigned? (negative : Bool) (text : List Char) : Option Binary64 :=
  let lower := text.map Char.toLower
  if lower = "inf".toList ∨ lower = "infinity".toList then some (Binary64.infinity negative)
  else if lower = "nan".toList then some Binary64.nan
  else
    let (whole, rest) := (dropSeparators false text).span isDigit
    match rest with
    | '.' :: more =>
      let (fraction, tail) := more.span isDigit
      if whole.isEmpty ∧ fraction.isEmpty then none
      else (exponentPart? tail).map (ofParts negative whole fraction)
    | tail =>
      if whole.isEmpty then none
      else (exponentPart? tail).map (ofParts negative whole [])

def float? (text : String) : Option Binary64 :=
  match text.trimAscii.toString.toList with
  | '-' :: rest => unsigned? true rest
  | '+' :: rest => unsigned? false rest
  | rest => unsigned? false rest

end DocScan.Decimal
