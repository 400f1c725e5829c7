import DocScan.Text.Hex
import DocScan.Text.Printable

/-!
# Quoted text

A text is shown between single quotes, or between double quotes when it holds
a single quote and no double one.  The backslash and the quote in use are
escaped, as are line breaks, tabs and every character without a visible form.
Bytes are shown in the same way behind the letter `b`, each byte outside
printable ASCII as two hexadecimal digits.
-/

namespace DocScan.Text

/-- The quote a run of characters is shown between. -/
def quoteFor (cs : List Char) : Char :=
  if cs.contains '\'' && !cs.contains '"' then '"' else '\''

/-- The last `width` hexadecimal digits of a number. -/
def hexDigits (n : Nat) : Nat → List Char
  | 0 => []
  | width + 1 => hexDigits (n / 16) width ++ [Hex.digit (n % 16)]

/-- A character without a visible form, by its code point. -/
def escapeCodePoint (n : Nat) : List Char :=
  if n < 0x100 then '\\' :: 'x' :: hexDigits n 2
  else if n < 0x10000 then '\\' :: 'u' :: hexDigits n 4
  else '\\' :: 'U' :: hexDigits n 8

/-- One character as it stands between the given quotes. -/
def escapeCharacter (quote c : Char) : List Char :=
  if c = quote ∨ c = '\\' then ['\\', c]
  else if c = '\n' then ['\\', 'n']
  else if c = '\r' then ['\\', 'r']
  else if c = '\t' then ['\\', 't']
  else if isPrintable c then [c]
  else escapeCodePoint c.toNat

def quoted (s : String) : String :=
  let cs := s.toList
  let quote := quoteFor cs
  String.ofList (quote :: (cs.flatMap (escapeCharacter quote) ++ [quote]))

/-- One byte as it stands between the given quotes. -/
def escapeByte (quote : Char) (b : UInt8) : List Char :=
  if b.toNat < 128 then escapeCharacter quote (Char.ofNat b.toNat)
  else escapeCodePoint b.toNat

def quotedBytes (bytes : List UInt8) : String :=
  let quote := quoteFor (bytes.map fun b => Char.ofNat b.toNat)
  String.ofList ('b' :: quote :: (bytes.flatMap (escapeByte quote) ++ [quote]))

end DocScan.Text
