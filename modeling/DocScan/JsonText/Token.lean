import DocScan.JsonText.Fault
import DocScan.Text.Hex
import DocScan.Value

/-!
# Tokens of JSON text

Texts, numbers and literal names, each read from the front of a run of
characters.  What is read is returned with the rest of the run, which is
shorter.
-/

namespace DocScan.JsonText

/-- What was read from the front of a run, with the rest of it. -/
structure Taken (α : Type) (cs : List Char) where
  value : α
  rest : List Char
  shorter : rest.length < cs.length

/-- What the front of a run holds, which may be nothing, with the rest of it. -/
structure Held (α : Type) (cs : List Char) where
  value : α
  rest : List Char
  notLonger : rest.length ≤ cs.length

def isBlank (c : Char) : Bool := c = ' ' || c = '\t' || c = '\n' || c = '\r'

def skipBlanks (cs : List Char) : List Char := cs.dropWhile isBlank

theorem length_dropWhile_le {α : Type} (p : α → Bool) (l : List α) :
    (l.dropWhile p).length ≤ l.length := by
  induction l with
  | nil => simp
  | cons a l ih =>
    simp only [List.dropWhile_cons]
    split
    · simp only [List.length_cons]
      omega
    · exact Nat.le_refl _

theorem length_skipBlanks_le (cs : List Char) : (skipBlanks cs).length ≤ cs.length :=
  length_dropWhile_le isBlank cs

/-! ## Texts -/

def codeUnit? (a b c d : Char) : Option Nat :=
  match Hex.digitValue? a, Hex.digitValue? b, Hex.digitValue? c, Hex.digitValue? d with
  | some w, some x, some y, some z => some (4096 * w + 256 * x + 16 * y + z)
  | _, _, _, _ => none

def isHighSurrogate (unit : Nat) : Bool := 0xD800 ≤ unit && unit < 0xDC00

def isLowSurrogate (unit : Nat) : Bool := 0xDC00 ≤ unit && unit < 0xE000

/-- The character of a code unit; half of a pair is replaced. -/
def unitCharacter (unit : Nat) : Char :=
  if isHighSurrogate unit || isLowSurrogate unit then Char.ofNat 0xFFFD else Char.ofNat unit

/-- The character of two code units that make a pair. -/
def pairCharacter (high low : Nat) : Char :=
  Char.ofNat (0x10000 + 1024 * (high - 0xD800) + (low - 0xDC00))

/-- The character of a code escape whose first unit is the high half of a
pair, when the other half follows. -/
def pairRest (unit : Nat) (cs : List Char) : Except Stop (Char × Nat) :=
  match cs with
  | '\\' :: 'u' :: a :: b :: c :: d :: _ :: _ =>
    match codeUnit? a b c d with
    | none => .error (.fault .codeEscape cs.tail)
    | some low =>
      if isLowSurrogate low then .ok (pairCharacter unit low, 6)
      else .ok (unitCharacter unit, 0)
  | _ => .ok (unitCharacter unit, 0)

/-- The character that a run behind a backslash begins with. -/
def takeEscape (cs : List Char) : Except Stop (Taken Char cs) :=
  match cs with
  | '"' :: rest => .ok ⟨'"', rest, by simp⟩
  | '\\' :: rest => .ok ⟨'\\', rest, by simp⟩
  | '/' :: rest => .ok ⟨'/', rest, by simp⟩
  | 'b' :: rest => .ok ⟨Char.ofNat 8, rest, by simp⟩
  | 'f' :: rest => .ok ⟨Char.ofNat 12, rest, by simp⟩
  | 'n' :: rest => .ok ⟨'\n', rest, by simp⟩
  | 'r' :: rest => .ok ⟨'\r', rest, by simp⟩
  | 't' :: rest => .ok ⟨'\t', rest, by simp⟩
  | 'u' :: a :: b :: c :: d :: e :: rest =>
    match codeUnit? a b c d with
    | none => .error (.fault .codeEscape cs)
    | some unit =>
      if isHighSurrogate unit then
        match pairRest unit (e :: rest) with
        | .error stop => .error stop
        | .ok (char, used) =>
          .ok ⟨char, (e :: rest).drop used, by
            simp only [List.length_drop, List.length_cons]
            omega⟩
      else .ok ⟨unitCharacter unit, e :: rest, by
        simp only [List.length_cons]
        omega⟩
  | 'u' :: rest => .error (.fault .codeEscape ('u' :: rest))
  | other => .error (.fault .escape ('\\' :: other))

/-- The characters up to the closing quote.  The opening quote is known by the
characters left there. -/
def takeText (opening : List Char) (cs : List Char) : Except Stop (Taken (List Char) cs) :=
  match cs with
  | [] => .error (.fault .unterminatedText opening)
  | '"' :: rest => .ok ⟨[], rest, by simp⟩
  | ['\\'] => .error (.fault .unterminatedText opening)
  | '\\' :: c :: rest =>
    match takeEscape (c :: rest) with
    | .error stop => .error stop
    | .ok escape =>
      have hescape : escape.rest.length < rest.length + 1 := escape.shorter
      match takeText opening escape.rest with
      | .error stop => .error stop
      | .ok tail => .ok ⟨escape.value :: tail.value, tail.rest, by
          have htail := tail.shorter
          simp only [List.length_cons]
          omega⟩
  | c :: rest =>
    if c.toNat < 32 then .error (.fault .controlCharacter (c :: rest))
    else
      match takeText opening rest with
      | .error stop => .error stop
      | .ok tail => .ok ⟨c :: tail.value, tail.rest, by
          have htail := tail.shorter
          simp only [List.length_cons]
          omega⟩
termination_by cs.length
decreasing_by
  all_goals
    simp only [List.length_cons]
    omega

/-! ## Numbers -/

def leadingDigits (cs : List Char) : Held (List Char) cs :=
  ⟨cs.takeWhile Decimal.isDigit, cs.dropWhile Decimal.isDigit,
    length_dropWhile_le Decimal.isDigit cs⟩

/-- The digits after a point, when there are any. -/
def fraction (cs : List Char) : Held (List Char) cs :=
  match cs with
  | '.' :: rest =>
    let digits := leadingDigits rest
    if digits.value.isEmpty then ⟨[], '.' :: rest, Nat.le_refl _⟩
    else ⟨digits.value, digits.rest, Nat.le_succ_of_le digits.notLonger⟩
  | other => ⟨[], other, Nat.le_refl _⟩

/-- Whether a run begins with a minus, and what follows its sign. -/
def sign (cs : List Char) : Held Bool cs :=
  match cs with
  | '-' :: rest => ⟨true, rest, Nat.le_succ _⟩
  | '+' :: rest => ⟨false, rest, Nat.le_succ _⟩
  | other => ⟨false, other, Nat.le_refl _⟩

/-- The exponent, when its mark is followed by digits. -/
def exponent (cs : List Char) : Held (Option Int) cs :=
  match cs with
  | mark :: rest =>
    if mark = 'e' ∨ mark = 'E' then
      let negative := sign rest
      let digits := leadingDigits negative.rest
      if digits.value.isEmpty then ⟨none, mark :: rest, Nat.le_refl _⟩
      else
        let n : Int := Decimal.ofDigits digits.value
        ⟨some (if negative.value then -n else n), digits.rest,
          Nat.le_succ_of_le (Nat.le_trans digits.notLonger negative.notLonger)⟩
    else ⟨none, mark :: rest, Nat.le_refl _⟩
  | [] => ⟨none, [], Nat.le_refl _⟩

/-- The digits of the integer part: a zero alone, or digits that begin with
another one. -/
def takeWhole? (cs : List Char) : Option (Taken (List Char) cs) :=
  match cs with
  | '0' :: rest => some ⟨['0'], rest, by simp⟩
  | c :: rest =>
    if Decimal.isDigit c then
      let digits := leadingDigits rest
      some ⟨c :: digits.value, digits.rest, Nat.lt_succ_of_le digits.notLonger⟩
    else none
  | [] => none

/-- The number with the given parts.  One without fraction and exponent is an
integer. -/
def numberOfParts (negative : Bool) (whole fraction : List Char) (exponent : Option Int) :
    Except Stop Value :=
  if fraction.isEmpty && exponent.isNone then
    if Decimal.maxDigits < whole.length then .error (.digitLimit whole.length)
    else
      let n : Int := Decimal.ofDigits whole
      .ok (.int (if negative then -n else n))
  else .ok (.float (Decimal.ofParts negative whole fraction (exponent.getD 0)))

/-- The number that a run behind its sign begins with.  The place of the sign
is known by the characters left there. -/
def takeUnsigned (start : List Char) (negative : Bool) (cs : List Char) :
    Except Stop (Taken Value cs) :=
  match takeWhole? cs with
  | none => .error (.fault .value start)
  | some whole =>
    let fractional := fraction whole.rest
    let scaled := exponent fractional.rest
    match numberOfParts negative whole.value fractional.value scaled.value with
    | .error stop => .error stop
    | .ok value =>
      .ok ⟨value, scaled.rest, Nat.lt_of_le_of_lt
        (Nat.le_trans scaled.notLonger fractional.notLonger) whole.shorter⟩

def takeNumber (cs : List Char) : Except Stop (Taken Value cs) :=
  match cs with
  | '-' :: rest =>
    match takeUnsigned ('-' :: rest) true rest with
    | .error stop => .error stop
    | .ok number => .ok ⟨number.value, number.rest, Nat.lt_succ_of_lt number.shorter⟩
  | other => takeUnsigned other false other

/-! ## Names -/

/-- The named value or number that a run begins with. -/
def takeScalar (cs : List Char) : Except Stop (Taken Value cs) :=
  match cs with
  | 'n' :: 'u' :: 'l' :: 'l' :: rest => .ok ⟨.null, rest, by simp; omega⟩
  | 't' :: 'r' :: 'u' :: 'e' :: rest => .ok ⟨.bool true, rest, by simp; omega⟩
  | 'f' :: 'a' :: 'l' :: 's' :: 'e' :: rest => .ok ⟨.bool false, rest, by simp; omega⟩
  | 'N' :: 'a' :: 'N' :: rest => .ok ⟨.float .nan, rest, by simp; omega⟩
  | 'I' :: 'n' :: 'f' :: 'i' :: 'n' :: 'i' :: 't' :: 'y' :: rest =>
    .ok ⟨.float (.infinity false), rest, by simp; omega⟩
  | '-' :: 'I' :: 'n' :: 'f' :: 'i' :: 'n' :: 'i' :: 't' :: 'y' :: rest =>
    .ok ⟨.float (.infinity true), rest, by simp; omega⟩
  | other => takeNumber other

end DocScan.JsonText
