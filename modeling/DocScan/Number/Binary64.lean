/-!
# Double-precision numbers

A number is held as its 64 bits: a sign, eleven exponent bits and fifty-two
fraction bits.  A finite number is `significand * 2 ^ exponent` with its
sign, and everything here is computed exactly on those two integers.
Rounding a quotient goes to the nearest number, a tie to the even
significand; one beyond the largest finite number becomes an infinity.
-/

namespace DocScan

/-- A double-precision number, given by its bits. -/
structure Binary64 where
  bits : UInt64
  deriving DecidableEq, Inhabited, Repr

namespace Binary64

def magnitude (x : Binary64) : Nat := x.bits.toNat % Nat.pow 2 63

def isNegative (x : Binary64) : Bool := Nat.pow 2 63 ≤ x.bits.toNat

def exponentField (x : Binary64) : Nat := x.magnitude / Nat.pow 2 52

def fraction (x : Binary64) : Nat := x.magnitude % Nat.pow 2 52

def infinityBits : Nat := 2047 * Nat.pow 2 52

def isNaN (x : Binary64) : Bool := infinityBits < x.magnitude

def isInfinite (x : Binary64) : Bool := x.magnitude = infinityBits

def isFinite (x : Binary64) : Bool := x.magnitude < infinityBits

def isZero (x : Binary64) : Bool := x.magnitude = 0

def significand (x : Binary64) : Nat :=
  if x.exponentField = 0 then x.fraction else Nat.pow 2 52 + x.fraction

/-- The power of two that scales the significand. -/
def exponent (x : Binary64) : Int := (max x.exponentField 1 : Nat) - 1075

/-- The number with the given sign and magnitude bits. -/
def ofMagnitude (negative : Bool) (magnitude : Nat) : Binary64 :=
  ⟨UInt64.ofNat (if negative then Nat.pow 2 63 + magnitude else magnitude)⟩

def infinity (negative : Bool) : Binary64 := ofMagnitude negative infinityBits

def nan : Binary64 := ofMagnitude false (infinityBits + Nat.pow 2 51)

/-- The integer that a finite number without a fractional part equals. -/
def toInt? (x : Binary64) : Option Int :=
  if x.isFinite then
    let signed : Nat → Int := fun n => if x.isNegative then -(n : Int) else n
    if 0 ≤ x.exponent then
      some (signed (x.significand * Nat.pow 2 x.exponent.toNat))
    else
      let divisor := Nat.pow 2 (-x.exponent).toNat
      if x.significand % divisor = 0 then some (signed (x.significand / divisor)) else none
  else none

/-- Numeric equality: the two zeros are equal, and a NaN equals nothing. -/
def equal (x y : Binary64) : Bool :=
  !x.isNaN && !y.isNaN && (x = y || (x.isZero && y.isZero))

/-- The quotient rounded to the nearest integer, a tie to the even one. -/
def roundHalfEven (num den : Nat) : Nat :=
  let floor := num / den
  let twice := 2 * (num % den)
  if twice < den then floor
  else if den < twice then floor + 1
  else if floor % 2 = 0 then floor else floor + 1

/-- `num / den` scaled by `2 ^ (-e)`, as a quotient of naturals. -/
def scaled (num den : Nat) (e : Int) : Nat × Nat :=
  if 0 ≤ e then (num, den * Nat.pow 2 e.toNat) else (num * Nat.pow 2 (-e).toNat, den)

/-- The exponent of the highest power of two that is at most `num / den`. -/
def floorLog2 (num den : Nat) : Int :=
  let estimate : Int := num.log2 - den.log2
  let (n, d) := scaled num den estimate
  if d ≤ n then estimate else estimate - 1

/-- The number nearest to `num / den`, with the given sign. -/
def ofQuotient (negative : Bool) (num den : Nat) : Binary64 :=
  if num = 0 then ofMagnitude negative 0
  else
    let grid := max (floorLog2 num den - 52) (-1074)
    let (n, d) := scaled num den grid
    ofMagnitude negative (min infinityBits ((grid + 1074).toNat * Nat.pow 2 52 + roundHalfEven n d))

/-- The number nearest to `digits * 10 ^ exponent`.  Exponents far outside
the range are answered without computing the power. -/
def ofDecimal (negative : Bool) (digits : Nat) (exponent : Int) : Binary64 :=
  if digits = 0 then ofMagnitude negative 0
  else if 400 < exponent then infinity negative
  else if exponent + digits.log2 < -1200 then ofMagnitude negative 0
  else if 0 ≤ exponent then ofQuotient negative (digits * Nat.pow 10 exponent.toNat) 1
  else ofQuotient negative digits (Nat.pow 10 (-exponent).toNat)

end Binary64

end DocScan
